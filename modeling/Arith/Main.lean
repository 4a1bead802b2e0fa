import Arith.Program

namespace Arith

def emit (verbose : Bool) (events : Array Repl.Event) : IO Unit := do
  let out ← IO.getStdout
  let err ← IO.getStderr
  for event in events do
    out.putStr event.outText
    err.putStr (if verbose then event.verboseErrText else event.errText)
  out.flush

partial def answerLines (showTokens verbose interactive : Bool) (failures : Nat) : IO Nat := do
  emit verbose (Repl.ask interactive ⟨#[], failures⟩).events
  let line ← (← IO.getStdin).getLine
  if line.isEmpty then return failures
  let progress := Repl.takeLine showTokens (line.dropEndWhile '\n').copy ⟨#[], failures⟩
  emit verbose progress.events
  answerLines showTokens verbose interactive progress.failures

def serve (words : List String) : IO UInt32 := do
  match CommandLine.read words with
  | .ok (.run { expression := none, showTokens, verbose }) =>
    let interactive ← (← IO.getStdin).isTty
    let failures ← answerLines showTokens verbose interactive 0
    emit verbose (Repl.finish interactive ⟨#[], failures⟩)
    return 0
  | _ =>
    let outcome := Program.run words ⟨[], false, false⟩
    (← IO.getStdout).putStr outcome.out
    (← IO.getStderr).putStr outcome.err
    return outcome.status.code.toUInt32

end Arith

def main (words : List String) : IO UInt32 := Arith.serve words
