import Arith.Parser.Expression

namespace Arith

structure Session.Client where
  parser : Parser
  scanner : Nat
  deriving DecidableEq, Repr

structure Session where
  scanners : Array Scanner
  clients : Array Session.Client
  deriving DecidableEq, Repr

namespace Session

/-- Scanners and parsers are named by index, in the order in which they were made. -/
inductive Action where
  | create (scanner : Nat)
  | scan (scanner : Nat)
  | expression (client : Nat)
  | parse (client : Nat) (level : Level)
  | advance (client : Nat)
  | consume (client : Nat) (expected : Token.Kind) (message : String)
  | look (client : Nat)
  deriving DecidableEq, Repr

inductive Answer where
  | created (client : Nat)
  | token (token : Token)
  | tree (tree : Tree)
  | accepted (value : Bool)
  | passed (token : Option Token)
  | done
  deriving DecidableEq, Repr

/-- What an action answers, what was reported and received meanwhile, and the session after it. -/
structure Step where
  answer : Answer
  reports : Array Report
  received : Array Token
  session : Session
  deriving DecidableEq, Repr

def ofSources (sources : List (String × String)) : Session :=
  ⟨(sources.map fun (source, filename) => Scanner.ofSource source filename).toArray, #[]⟩

def work (s : Session) (client : Nat) (call : Parsing → Answer × Parsing) : Option Step := do
  let ⟨parser, scanner⟩ ← s.clients[client]?
  let source ← s.scanners[scanner]?
  let (answer, p) := call (.resume parser source)
  return ⟨answer, p.reports, p.received,
    { scanners := s.scanners.setIfInBounds scanner p.scanner
      clients := s.clients.setIfInBounds client ⟨p.toParser, scanner⟩ }⟩

/-- Carries out an action, unless it names a scanner or a parser that does not exist. -/
def perform (s : Session) : Action → Option Step
  | .create scanner => do
    let source ← s.scanners[scanner]?
    let p := Parsing.start source
    return ⟨.created s.clients.size, p.reports, p.received,
      { scanners := s.scanners.setIfInBounds scanner p.scanner
        clients := s.clients.push ⟨p.toParser, scanner⟩ }⟩
  | .scan scanner => do
    let source ← s.scanners[scanner]?
    let (token, source) := source.scan
    return ⟨.token token, #[], #[token],
      { s with scanners := s.scanners.setIfInBounds scanner source }⟩
  | .expression client => s.work client fun p => (.tree p.expression.1, p.expression.2)
  | .parse client level => s.work client fun p => (.tree (p.parse level).1, (p.parse level).2)
  | .advance client => s.work client fun p => (.passed p.advance.previous, p.advance)
  | .consume client expected message =>
    s.work client fun p => (.accepted (p.consume expected message).1, (p.consume expected message).2)
  | .look client => s.work client fun p => (.done, p)

end Session

end Arith
