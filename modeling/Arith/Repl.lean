import Arith.Parser.Expression
import Arith.Text.Aligned
import Arith.Text.Blank
import Arith.Tree.Printer

namespace Arith.Repl

inductive Voice where
  | parser
  | loop
  deriving DecidableEq, Repr

def Voice.label : Voice → String
  | parser => "exprparse.parser.parser"
  | loop => "exprparse.repl"

inductive Event where
  | out (text : String)
  | err (text : String)
  | log (voice : Voice) (text : String)
  deriving DecidableEq, Repr

def Event.outText : Event → String
  | out text => text
  | _ => ""

def Event.errText : Event → String
  | err text => text
  | _ => ""

def Event.logLine? : Event → Option String
  | log voice text => some ("DEBUG " ++ voice.label ++ ": " ++ text)
  | _ => none

def Event.verboseErrText (e : Event) : String :=
  match e.logLine? with
  | some line => line ++ "\n"
  | none => e.errText

def outText (events : Array Event) : String := events.foldl (fun text e => text ++ e.outText) ""

def errText (events : Array Event) : String := events.foldl (fun text e => text ++ e.errText) ""

def verboseErrText (events : Array Event) : String := events.foldl (fun text e => text ++ e.verboseErrText) ""

def logLines (events : Array Event) : Array String := events.filterMap Event.logLine?

def prompt : String := "> "

def dumpRow (column : Int) (kind : Token.Kind) (shown : String) : String :=
  Text.alignRight 4 (toString column) ++ "  " ++ Text.alignLeft 12 kind.label ++ " " ++ shown ++ "\n"

def dumpToken (t : Token) : String := dumpRow t.location.column t.kind (Text.quoted t.lexeme)

/-- The errors of a line are shown by column, since there is only one line. -/
def errorRow (e : SyntaxError) : String := "[column " ++ toString e.location.column ++ "] " ++ e.brief ++ "\n"

structure Response where
  events : Array Event
  ok : Bool
  deriving DecidableEq, Repr

def dumpLine (line filename : String) : Response :=
  let tokens := tokenize line filename
  ⟨tokens.map fun t => .out (dumpToken t), tokens.all fun t => t.kind ≠ .invalid⟩

/-- The reports come first, because they are made while the line is read. -/
def parseLine (line filename : String) : Response :=
  let (tree, p) := (Parsing.ofSource line filename).expression
  let reports := p.reports.map fun report => Event.log .parser report.render
  if p.hadError then
    let rows := p.errors.map fun e => Event.err (errorRow e)
    ⟨reports ++ rows ++ #[.log .loop ("partial tree: " ++ tree.print)], false⟩
  else ⟨reports ++ #[.out (tree.print ++ "\n")], true⟩

def answerLine (showTokens : Bool) (line filename : String) : Response :=
  if showTokens then dumpLine line filename else parseLine line filename

/-- Cuts a text behind every line feed, and leaves the line feeds out. A last line needs none. -/
def splitLines (text : List Char) : List (List Char) :=
  text.foldr (fun c lines =>
    if c = '\n' then [] :: lines
    else
      match lines with
      | [] => [[c]]
      | line :: lines => (c :: line) :: lines) []

structure Input where
  lines : List String
  interactive : Bool
  interrupted : Bool
  deriving DecidableEq, Repr

def Input.ofText (text : String) (interactive : Bool) : Input :=
  ⟨(splitLines text.toList).map String.ofList, interactive, false⟩

/-- An interrupt in place of whatever follows the first `count` lines. It comes too late once the end of
the input has been read. -/
def Input.interruptAfter (count : Nat) (input : Input) : Input :=
  if count ≤ input.lines.length then { input with lines := input.lines.take count, interrupted := true }
  else input

structure Progress where
  events : Array Event
  failures : Nat
  deriving DecidableEq, Repr

def filename : String := "<stdin>"

def ask (interactive : Bool) (p : Progress) : Progress :=
  if interactive then { p with events := p.events.push (.out prompt) } else p

def takeLine (showTokens : Bool) (line : String) (p : Progress) : Progress :=
  if Text.isBlank line then p
  else
    let response := answerLine showTokens line filename
    ⟨p.events ++ response.events, if response.ok then p.failures else p.failures + 1⟩

/-- Leaves the line of an unanswered prompt, and counts the malformed lines in the log. -/
def finish (interactive : Bool) (p : Progress) : Array Event :=
  let events := if interactive then p.events.push (.out "\n") else p.events
  events.push (.log .loop ("finished with " ++ toString p.failures ++ " malformed line(s)"))

structure Outcome where
  events : Array Event
  status : Nat
  deriving DecidableEq, Repr

/-- An interrupt leaves the line, whether or not there was a prompt on it, and is not a success. -/
def run (showTokens : Bool) (input : Input) : Outcome :=
  let progress := input.lines.foldl
    (fun p line => takeLine showTokens line (ask input.interactive p)) ⟨#[], 0⟩
  let progress := ask input.interactive progress
  if input.interrupted then ⟨progress.events.push (.out "\n"), 130⟩
  else ⟨finish input.interactive progress, 0⟩

end Arith.Repl
