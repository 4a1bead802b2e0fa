import Arith.Program
import Arith.Proofs.LineLoop

namespace Arith

namespace Repl

def takeLines : (count : Nat) → (text : List Char) → List Char
  | 0, _ => []
  | _ + 1, [] => []
  | count + 1, c :: text => c :: if c = '\n' then takeLines count text else takeLines (count + 1) text

def firstLines (count : Nat) (text : String) : String := String.ofList (takeLines count text.toList)

theorem splitLines_cons_nil {c : Char} {text : List Char} (other : c ≠ '\n') (split : splitLines text = []) :
    splitLines (c :: text) = [[c]] := by
  rw [splitLines] at split
  simp [splitLines, other, split]

theorem splitLines_takeLines (count : Nat) (text : List Char) :
    splitLines (takeLines count text) = (splitLines text).take count := by
  induction text generalizing count with
  | nil => cases count <;> rfl
  | cons c text ih =>
    cases count with
    | zero => rfl
    | succ count =>
      rw [takeLines]
      split
      next feed =>
        subst feed
        rw [splitLines_feed, splitLines_feed, ih, List.take_succ_cons]
      next other =>
        have first := ih (count + 1)
        cases split : splitLines text with
        | nil =>
          rw [split, List.take_nil] at first
          rw [splitLines_cons_nil other first, splitLines_cons_nil other split, List.take_succ_cons, List.take_nil]
        | cons line lines =>
          rw [split, List.take_succ_cons] at first
          rw [splitLines_cons other first, splitLines_cons other split, List.take_succ_cons]

theorem linesOf_firstLines (count : Nat) (text : String) :
    linesOf (firstLines count text) = (linesOf text).take count := by
  rw [linesOf, linesOf, firstLines, String.toList_ofList, splitLines_takeLines, List.map_take]

section Loop

variable (showTokens interactive : Bool)

theorem run_of_interrupted {input : Input} (stopped : input.interrupted = true) :
    run showTokens input =
      ⟨answered showTokens input.interactive input.lines ++ asked input.interactive ++ #[.out "\n"], 130⟩ := by
  rw [run, foldl_takeLine, ask_eq, stopped]
  simp

theorem lines_ofText (text : String) : (Input.ofText text interactive).lines = linesOf text := rfl

theorem run_interruptAfter {count : Nat} {text : String} (soon : count ≤ (linesOf text).length) :
    run showTokens ((Input.ofText text interactive).interruptAfter count) =
      ⟨answered showTokens interactive (linesOf (firstLines count text)) ++ asked interactive ++ #[.out "\n"], 130⟩ := by
  rw [Input.interruptAfter, lines_ofText, if_pos soon, run_of_interrupted showTokens rfl, linesOf_firstLines]
  rfl

variable {count : Nat} {text : String} (soon : count ≤ (linesOf text).length)

include soon

theorem errText_interruptAfter :
    errText (run showTokens ((Input.ofText text interactive).interruptAfter count)).events =
      errText (loop showTokens interactive (firstLines count text)).events := by
  have silent : errText (asked interactive) = "" := by cases interactive <;> rfl
  rw [run_interruptAfter showTokens interactive soon, errText_loop]
  simp only [errText_append, errText_answered, errText_singleton, silent]
  exact String.append_empty.trans String.append_empty

theorem outText_interruptAfter :
    outText (run showTokens ((Input.ofText text interactive).interruptAfter count)).events =
      if interactive then outText (loop showTokens interactive (firstLines count text)).events
      else outText (loop showTokens interactive (firstLines count text)).events ++ "\n" := by
  rw [run_interruptAfter showTokens interactive soon]
  simp only [outText_append, outText_singleton, Event.outText]
  cases interactive with
  | true =>
    rw [if_pos rfl, outText_loop_prompting]
    rfl
  | false =>
    rw [if_neg Bool.false_ne_true, outText_loop_quiet]
    exact congrArg (· ++ "\n") String.append_empty

end Loop

theorem interruptAfter_of_late {input : Input} {count : Nat} (late : input.lines.length < count) :
    input.interruptAfter count = input := if_neg (Nat.not_le_of_lt late)

end Repl

namespace Program

def Loops (words : List String) (showTokens : Bool) : Prop :=
  CommandLine.read words = .ok (.run ⟨none, showTokens, false⟩)

theorem run_of_loops {words : List String} {showTokens : Bool} (loops : Loops words showTokens) (input : Repl.Input) :
    run words input =
      ⟨.returned (Repl.run showTokens input).status, Repl.outText (Repl.run showTokens input).events,
        Repl.errText (Repl.run showTokens input).events⟩ := by
  rw [run, loops]
  rfl

theorem status_of_loops {words : List String} {showTokens : Bool} (loops : Loops words showTokens) (text : String)
    (interactive : Bool) : (run words (.ofText text interactive)).status = .returned 0 := by
  have whole : (Repl.Input.ofText text interactive).interrupted = false := rfl
  rw [run_of_loops loops, Repl.run_of_uninterrupted showTokens whole]

/-- An interrupt behind the first `count` lines does what the end of the input does there, and comes too late if the
input has ended. -/
theorem interrupt_ends_input {words : List String} {showTokens : Bool} (loops : Loops words showTokens) (text : String)
    (interactive : Bool) (count : Nat) :
    let stopped := run words ((Repl.Input.ofText text interactive).interruptAfter count)
    let ended := run words (.ofText (Repl.firstLines count text) interactive)
    let whole := run words (.ofText text interactive)
    (count ≤ (Repl.linesOf text).length → stopped.status = .returned 130 ∧ stopped.err = ended.err ∧
        stopped.out = if interactive then ended.out else ended.out ++ "\n") ∧
      ((Repl.linesOf text).length < count → stopped = whole) ∧
      ended.status = .returned 0 ∧ whole.status = .returned 0 := by
  intro stopped ended whole
  refine ⟨fun soon => ⟨?_, ?_, ?_⟩, fun late => ?_, status_of_loops loops _ _, status_of_loops loops _ _⟩
  · show (run words _).status = _
    rw [run_of_loops loops, Repl.run_interruptAfter showTokens interactive soon]
  · show (run words _).err = (run words _).err
    rw [run_of_loops loops, run_of_loops loops]
    exact Repl.errText_interruptAfter showTokens interactive soon
  · show (run words _).out = if interactive then (run words _).out else (run words _).out ++ "\n"
    rw [run_of_loops loops, run_of_loops loops]
    exact Repl.outText_interruptAfter showTokens interactive soon
  · exact congrArg (run words) (Repl.interruptAfter_of_late late)

theorem interrupt_ends_input_last_line :
    let stopped := run ["--tokens"] ((Repl.Input.ofText "1 +\n\n2 ? @" true).interruptAfter 3)
    let ended := run ["--tokens"] (.ofText (Repl.firstLines 3 "1 +\n\n2 ? @") true)
    stopped.status = .returned 130 ∧ stopped.err = ended.err ∧ stopped.out = ended.out := by
  have both := @interrupt_ends_input ["--tokens"] true rfl "1 +\n\n2 ? @" true 3
  exact both.1 (by decide)

end Program

end Arith
