import Arith.CommandLine
import Arith.Repl

namespace Arith.Program

def version : String := "0.1.0"

def name : String := "exprparse-repl"

def usage : String := "usage: " ++ name ++ " [-h] [-c EXPR] [--tokens] [--verbose] [--version]\n"

def helpText : String :=
  usage ++ "\n" ++
  "Parse arithmetic expressions and print their syntax trees\n" ++
  "\n" ++
  "options:\n" ++
  "  -h, --help  show this help message and exit\n" ++
  "  -c EXPR     Parse a single expression and exit\n" ++
  "  --tokens    Print the token stream instead of the tree\n" ++
  "  --verbose   Enable debug logging\n" ++
  "  --version   show program's version number and exit\n" ++
  "\n" ++
  "Examples:\n" ++
  "    exprparse-repl                     # Interactive session\n" ++
  "    exprparse-repl -c \"1 + 2 * 3\"      # Prints (+ 1 (* 2 3))\n" ++
  "    echo \"-1 ? 2 : 3\" | exprparse-repl --tokens\n" ++
  "        \n"

def usageText (e : CommandLine.UsageError) : String := usage ++ name ++ ": error: " ++ e.message ++ "\n"

def filename : String := "<command line>"

/-- An expression of no words is empty, but its token dump shows an empty list where a lexeme would stand. -/
def answerExpression (showTokens : Bool) : CommandLine.Operand → Repl.Response
  | .text text => Repl.answerLine showTokens text filename
  | .noWords =>
    if showTokens then ⟨#[.out (Repl.dumpRow 1 .endOfInput "[]")], true⟩ else Repl.parseLine "" filename

inductive Status where
  | returned (code : Nat)
  | stopped (code : Nat)
  deriving DecidableEq, Repr

def Status.code : Status → Nat
  | returned code | stopped code => code

structure Outcome where
  status : Status
  out : String
  err : String
  deriving DecidableEq, Repr

def errText (verbose : Bool) (events : Array Repl.Event) : String :=
  if verbose then Repl.verboseErrText events else Repl.errText events

def run (words : List String) (input : Repl.Input) : Outcome :=
  match CommandLine.read words with
  | .error e => ⟨.stopped 2, "", usageText e⟩
  | .ok .help => ⟨.stopped 0, helpText, ""⟩
  | .ok .version => ⟨.stopped 0, name ++ " " ++ version ++ "\n", ""⟩
  | .ok (.run settings) =>
    match settings.expression with
    | some expression =>
      let response := answerExpression settings.showTokens expression
      ⟨.returned (if response.ok then 0 else 1), Repl.outText response.events,
        errText settings.verbose response.events⟩
    | none =>
      let outcome := Repl.run settings.showTokens input
      ⟨.returned outcome.status, Repl.outText outcome.events, errText settings.verbose outcome.events⟩

end Arith.Program
