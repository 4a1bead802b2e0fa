import Arith.SyntaxError

namespace Arith

/-- Operators nest no deeper than this, neither in calls under way nor in the trees that are built. -/
def maxNesting : Nat := 100

def maxDigits : Nat := 4300

/-- Looks one token ahead and remembers one token back. After an error it panics, until a token that it waits for is
found. -/
structure Parser where
  previous : Option Token
  current : Token
  hadError : Bool
  panicking : Bool
  /-- Once set, no further token is read. -/
  nestingExceeded : Bool
  /-- How many expressions are being read, one inside the other. -/
  depth : Nat
  errors : Array SyntaxError
  deriving DecidableEq, Repr

inductive Report where
  | recorded (error : SyntaxError)
  | suppressed (error : SyntaxError)
  deriving DecidableEq, Repr

def Report.render : Report → String
  | recorded error => error.location.render ++ ": " ++ error.brief
  | suppressed error => "suppressed while recovering: " ++ error.brief

structure Parsing extends Parser where
  scanner : Scanner
  reports : Array Report
  received : Array Token
  deepest : Nat
  deriving DecidableEq, Repr

namespace Parsing

/-- The first error of a region is recorded, the ones after it are suppressed. -/
def report (error : SyntaxError) (p : Parsing) : Parsing :=
  if p.panicking then { p with reports := p.reports.push (.suppressed error) }
  else
    { p with
      hadError := true
      panicking := true
      errors := p.errors.push error
      reports := p.reports.push (.recorded error) }

def reportPassed (passed : Array Token) (p : Parsing) : Parsing :=
  passed.foldl (fun p token => p.report ⟨.lexical, token⟩) p

def start (scanner : Scanner) : Parsing :=
  let next := scanner.pull
  reportPassed next.passed
    { previous := none
      current := next.token
      hadError := false
      panicking := false
      nestingExceeded := false
      depth := 0
      errors := #[]
      scanner := next.scanner
      reports := #[]
      received := next.passed.push next.token
      deepest := 0 }

def ofSource (source filename : String) : Parsing := start (.ofSource source filename)

def resume (parser : Parser) (scanner : Scanner) : Parsing :=
  { toParser := parser, scanner, reports := #[], received := #[], deepest := parser.depth }

def advance (p : Parsing) : Parsing :=
  let next := p.scanner.pull
  reportPassed next.passed
    { p with
      previous := some p.current
      current := next.token
      scanner := next.scanner
      received := (p.received ++ next.passed).push next.token }

/-- Moves past a token that was waited for, which ends a panic; any other token is an error. -/
def consume (expected : Token.Kind) (message : String) (p : Parsing) : Bool × Parsing :=
  if p.nestingExceeded then (false, p)
  else if p.current.kind = expected then (true, { p with panicking := false }.advance)
  else (false, p.report ⟨.missing expected message, p.current⟩)

def exceedNesting (p : Parsing) : Parsing :=
  if p.nestingExceeded then p
  else { p with nestingExceeded := true }.report ⟨.nestedTooDeeply maxNesting, p.current⟩

def descend (p : Parsing) : Parsing :=
  { p with depth := p.depth + 1, deepest := max p.deepest (p.depth + 1) }

def ascend (p : Parsing) : Parsing := { p with depth := p.depth - 1 }

end Parsing

end Arith
