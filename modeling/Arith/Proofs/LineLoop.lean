import Arith.Repl

namespace Arith.Repl

theorem splitLines_feed (text : List Char) : splitLines ('\n' :: text) = [] :: splitLines text := by
  simp [splitLines]

theorem splitLines_cons {c : Char} {text line : List Char} {lines : List (List Char)} (other : c ≠ '\n')
    (split : splitLines text = line :: lines) : splitLines (c :: text) = (c :: line) :: lines := by
  rw [splitLines] at split
  simp [splitLines, other, split]

theorem splitLines_append_feed (front back : List Char) :
    splitLines (front ++ '\n' :: back) = splitLines (front ++ ['\n']) ++ splitLines back := by
  induction front with
  | nil =>
    rw [List.nil_append, List.nil_append, splitLines_feed, splitLines_feed]
    rfl
  | cons c front ih =>
    by_cases feed : c = '\n'
    · subst feed
      rw [List.cons_append, List.cons_append, splitLines_feed, splitLines_feed, ih, List.cons_append]
    · cases first : splitLines (front ++ ['\n']) with
      | nil =>
        -- the part ends in a line feed, so it has a line
        cases front <;> simp [splitLines] at first
        split at first
        · cases first
        · split at first <;> cases first
      | cons line lines =>
        rw [first, List.cons_append] at ih
        rw [List.cons_append, List.cons_append, splitLines_cons feed ih, splitLines_cons feed first, List.cons_append]

theorem splitLines_line {line : List Char} (whole : '\n' ∉ line) : splitLines (line ++ ['\n']) = [line] := by
  induction line with
  | nil => rfl
  | cons c line ih =>
    obtain ⟨other, rest⟩ := List.ne_and_not_mem_of_not_mem_cons whole
    exact splitLines_cons other.symm (ih rest)

theorem splitLines_last_line {line : List Char} (whole : '\n' ∉ line) (some : line ≠ []) :
    splitLines line = [line] := by
  induction line with
  | nil => exact absurd rfl some
  | cons c line ih =>
    obtain ⟨other, rest⟩ := List.ne_and_not_mem_of_not_mem_cons whole
    cases line with
    | nil => simp [splitLines, other.symm]
    | cons d line => exact splitLines_cons other.symm (ih rest (List.cons_ne_nil d line))

def linesOf (text : String) : List String := (splitLines text.toList).map String.ofList

theorem linesOf_append {first second : String} (ends : first = "" ∨ ∃ front, first = front ++ "\n") :
    linesOf (first ++ second) = linesOf first ++ linesOf second := by
  rcases ends with rfl | ⟨front, rfl⟩
  · rw [String.empty_append]
    rfl
  · have split := splitLines_append_feed front.toList second.toList
    rw [linesOf, linesOf, linesOf, ← List.map_append, String.toList_append, String.toList_append]
    exact congrArg (List.map String.ofList) (by simpa using split)

theorem linesOf_line {line : String} (whole : '\n' ∉ line.toList) : linesOf (line ++ "\n") = [line] := by
  have split := splitLines_line whole
  rw [linesOf, String.toList_append]
  exact (congrArg (List.map String.ofList) split).trans (congrArg (fun l => [l]) String.ofList_toList)

theorem linesOf_last_line {line : String} (whole : '\n' ∉ line.toList) (some : line ≠ "") : linesOf line = [line] := by
  have text : line.toList ≠ [] := by simpa using some
  rw [linesOf, splitLines_last_line whole text, List.map_singleton, String.ofList_toList]

theorem linesOf_join {lines : List String} (whole : ∀ line ∈ lines, '\n' ∉ line.toList) :
    linesOf (String.join (lines.map (· ++ "\n"))) = lines := by
  induction lines with
  | nil => rfl
  | cons line lines ih =>
    obtain ⟨first, others⟩ := List.forall_mem_cons.mp whole
    rw [List.map_cons, String.join_cons, linesOf_append (.inr ⟨line, rfl⟩), linesOf_line first, ih others]
    rfl

theorem outText_eq_join (events : Array Event) : outText events = String.join (events.toList.map Event.outText) := by
  rw [outText, ← Array.foldl_toList, String.join, List.foldl_map]

theorem errText_eq_join (events : Array Event) : errText events = String.join (events.toList.map Event.errText) := by
  rw [errText, ← Array.foldl_toList, String.join, List.foldl_map]

@[simp] theorem outText_append (front back : Array Event) :
    outText (front ++ back) = outText front ++ outText back := by
  simp only [outText_eq_join, Array.toList_append, List.map_append, String.join_append]

@[simp] theorem errText_append (front back : Array Event) :
    errText (front ++ back) = errText front ++ errText back := by
  simp only [errText_eq_join, Array.toList_append, List.map_append, String.join_append]

@[simp] theorem outText_singleton (e : Event) : outText #[e] = e.outText := String.empty_append

@[simp] theorem errText_singleton (e : Event) : errText #[e] = e.errText := String.empty_append

def contribution (showTokens : Bool) (line : String) : Array Event :=
  if Text.isBlank line then #[] else (answerLine showTokens line filename).events

def malformed (showTokens : Bool) (line : String) : Bool :=
  !Text.isBlank line && !(answerLine showTokens line filename).ok

def asked (interactive : Bool) : Array Event := if interactive then #[.out prompt] else #[]

def answered (showTokens interactive : Bool) : List String → Array Event
  | [] => #[]
  | line :: lines => asked interactive ++ contribution showTokens line ++ answered showTokens interactive lines

def tally (failures : Nat) : Event :=
  .log .loop ("finished with " ++ toString failures ++ " malformed line(s)")

def closing (interactive : Bool) : Array Event := if interactive then #[.out prompt, .out "\n"] else #[]

section Loop

variable (showTokens interactive : Bool)

theorem ask_eq (p : Progress) : ask interactive p = ⟨p.events ++ asked interactive, p.failures⟩ := by
  cases interactive <;> simp [ask, asked]

theorem takeLine_eq (line : String) (p : Progress) :
    takeLine showTokens line p =
      ⟨p.events ++ contribution showTokens line, p.failures + if malformed showTokens line then 1 else 0⟩ := by
  cases blank : Text.isBlank line with
  | true => simp [takeLine, contribution, malformed, blank]
  | false => cases ok : (answerLine showTokens line filename).ok <;> simp [takeLine, contribution, malformed, blank, ok]

theorem foldl_takeLine (lines : List String) (p : Progress) :
    lines.foldl (fun p line => takeLine showTokens line (ask interactive p)) p =
      ⟨p.events ++ answered showTokens interactive lines, p.failures + lines.countP (malformed showTokens)⟩ := by
  induction lines generalizing p with
  | nil => simp [answered]
  | cons line lines ih =>
    rw [List.foldl_cons, ih, takeLine_eq, ask_eq, answered, List.countP_cons]
    simp only [Array.append_assoc, Progress.mk.injEq, true_and]
    omega

theorem run_of_uninterrupted {input : Input} (whole : input.interrupted = false) :
    run showTokens input =
      ⟨answered showTokens input.interactive input.lines ++ closing input.interactive ++
        #[tally (input.lines.countP (malformed showTokens))], 0⟩ := by
  rw [run, foldl_takeLine, ask_eq, whole]
  cases input.interactive <;> simp [finish, asked, closing, tally, ← Array.toList_inj]

theorem answered_append (front back : List String) :
    answered showTokens interactive (front ++ back) =
      answered showTokens interactive front ++ answered showTokens interactive back := by
  induction front with
  | nil => simp [answered]
  | cons line front ih =>
    rw [List.cons_append, answered, answered, ih, Array.append_assoc, Array.append_assoc, Array.append_assoc]

theorem errText_answered (lines : List String) :
    errText (answered showTokens interactive lines) = errText (answered showTokens false lines) := by
  have silent : errText (asked interactive) = "" := by cases interactive <;> rfl
  induction lines with
  | nil => rfl
  | cons line lines ih =>
    rw [answered, answered, errText_append, errText_append, errText_append, errText_append, ih, silent]
    rfl

def loop (text : String) : Outcome := run showTokens (.ofText text interactive)

variable (text : String)

theorem loop_eq :
    loop showTokens interactive text =
      ⟨answered showTokens interactive (linesOf text) ++ closing interactive ++
        #[tally ((linesOf text).countP (malformed showTokens))], 0⟩ := run_of_uninterrupted showTokens rfl

theorem outText_loop :
    outText (loop showTokens interactive text).events =
      outText (answered showTokens interactive (linesOf text)) ++ outText (closing interactive) := by
  rw [loop_eq, outText_append, outText_append]
  exact String.append_empty

theorem outText_loop_quiet :
    outText (loop showTokens false text).events = outText (answered showTokens false (linesOf text)) := by
  rw [outText_loop]
  exact String.append_empty

theorem outText_loop_prompting :
    outText (loop showTokens true text).events =
      outText (answered showTokens true (linesOf text)) ++ prompt ++ "\n" := by
  rw [outText_loop, String.append_assoc]
  rfl

theorem errText_loop :
    errText (loop showTokens interactive text).events = errText (answered showTokens false (linesOf text)) := by
  have silent : errText (closing interactive) = "" := by cases interactive <;> rfl
  rw [loop_eq, errText_append, errText_append, errText_answered, silent, String.append_empty]
  exact String.append_empty

theorem last_loop :
    (loop showTokens interactive text).events.back? = some (tally ((linesOf text).countP (malformed showTokens))) := by
  rw [loop_eq]
  simp

end Loop

/-- What the loop does with `text` is to answer its only line. -/
structure AnswersLine (showTokens : Bool) (line text : String) : Prop where
  blank : Text.isBlank line = true →
    outText (loop showTokens false text).events = "" ∧ errText (loop showTokens false text).events = "" ∧
      (loop showTokens false text).events.back? = some (tally 0)
  answered : Text.isBlank line = false →
    outText (loop showTokens false text).events = outText (answerLine showTokens line filename).events ∧
      errText (loop showTokens false text).events = errText (answerLine showTokens line filename).events ∧
      (loop showTokens false text).events.back? =
        some (tally (if (answerLine showTokens line filename).ok then 0 else 1))
  prompted : text ≠ "" → outText (loop showTokens true text).events =
    prompt ++ outText (loop showTokens false text).events ++ prompt ++ "\n"

theorem answersLine_of_nil (showTokens : Bool) : AnswersLine showTokens "" "" where
  blank _ := ⟨rfl, rfl, rfl⟩
  answered some := by cases some
  prompted some := absurd rfl some

theorem outText_answered_line (showTokens interactive : Bool) (line : String) :
    outText (answered showTokens interactive [line]) =
      outText (asked interactive) ++ outText (contribution showTokens line) := by
  rw [answered, answered, outText_append, outText_append]
  exact String.append_empty

theorem errText_answered_line (showTokens : Bool) (line : String) :
    errText (answered showTokens false [line]) = errText (contribution showTokens line) := by
  rw [answered, answered, errText_append, errText_append]
  exact String.append_empty.trans String.empty_append

theorem answersLine_of_line {line text : String} (only : linesOf text = [line]) (showTokens : Bool) :
    AnswersLine showTokens line text := by
  have out : outText (loop showTokens false text).events = outText (contribution showTokens line) := by
    rw [outText_loop_quiet, only, outText_answered_line]
    exact String.empty_append
  have err : errText (loop showTokens false text).events = errText (contribution showTokens line) := by
    rw [errText_loop, only, errText_answered_line]
  have last := last_loop showTokens false text
  rw [only, List.countP_singleton] at last
  refine ⟨fun blank => ?_, fun some => ?_, fun _ => ?_⟩
  · rw [out, err, last]
    simp only [contribution, malformed, blank, ite_true]
    exact ⟨rfl, rfl, rfl⟩
  · rw [out, err, last]
    simp only [contribution, malformed, some]
    cases (answerLine showTokens line filename).ok <;> exact ⟨rfl, rfl, rfl⟩
  · rw [out, outText_loop_prompting, only, outText_answered_line]
    rfl

theorem answersLine_of_whole {line text : String} (whole : '\n' ∉ line.toList)
    (form : text = line ∨ text = line ++ "\n") (showTokens : Bool) : AnswersLine showTokens line text := by
  rcases form with rfl | rfl
  · by_cases some : text = ""
    · subst some
      exact answersLine_of_nil showTokens
    · exact answersLine_of_line (linesOf_last_line whole some) showTokens
  · exact answersLine_of_line (linesOf_line whole) showTokens

/-- What the loop does with two texts together is what it does with the one and then with the other, apart from the
prompt at the end of the first. -/
structure Concatenates (showTokens : Bool) (first second : String) : Prop where
  status (interactive : Bool) : (loop showTokens interactive (first ++ second)).status = 0
  out : outText (loop showTokens false (first ++ second)).events =
    outText (loop showTokens false first).events ++ outText (loop showTokens false second).events
  err (interactive : Bool) : errText (loop showTokens interactive (first ++ second)).events =
    errText (loop showTokens false first).events ++ errText (loop showTokens false second).events
  prompted : ∃ shown, outText (loop showTokens true first).events = shown ++ prompt ++ "\n" ∧
    outText (loop showTokens true (first ++ second)).events = shown ++ outText (loop showTokens true second).events
  counted (interactive : Bool) : ∃ m n, (loop showTokens interactive first).events.back? = some (tally m) ∧
    (loop showTokens interactive second).events.back? = some (tally n) ∧
    (loop showTokens interactive (first ++ second)).events.back? = some (tally (m + n))

theorem concatenates_of_ends {first second : String} (ends : first = "" ∨ ∃ front, first = front ++ "\n")
    (showTokens : Bool) : Concatenates showTokens first second := by
  have lines : linesOf (first ++ second) = linesOf first ++ linesOf second := linesOf_append ends
  constructor
  case status =>
    intro interactive
    rw [loop_eq]
  case out => rw [outText_loop_quiet, outText_loop_quiet, outText_loop_quiet, lines, answered_append, outText_append]
  case err =>
    intro interactive
    rw [errText_loop, errText_loop, errText_loop, lines, answered_append, errText_append]
  case prompted =>
    refine ⟨outText (answered showTokens true (linesOf first)), outText_loop_prompting showTokens first, ?_⟩
    rw [outText_loop_prompting, outText_loop_prompting, lines, answered_append, outText_append]
    simp only [String.append_assoc]
  case counted =>
    intro interactive
    refine ⟨_, _, last_loop showTokens interactive first, last_loop showTokens interactive second, ?_⟩
    rw [last_loop, lines, List.countP_append]

/-- The loop reads a text line by line, and nothing that happens on one line is felt on the next. -/
theorem loop_append (showTokens : Bool) {first second : String} (ends : first = "" ∨ ∃ front, first = front ++ "\n") :
    Concatenates showTokens first second ∧
      ∀ line text : String, '\n' ∉ line.toList → text = line ∨ text = line ++ "\n" →
        AnswersLine showTokens line text :=
  ⟨concatenates_of_ends ends showTokens, fun _ _ whole form => answersLine_of_whole whole form showTokens⟩

theorem loop_append_malformed_first :
    Concatenates false "1 +\n" " 2 ? 3" ∧ AnswersLine false "1 +" "1 +\n" := by
  have both := @loop_append false "1 +\n" " 2 ? 3" (.inr ⟨"1 +", rfl⟩)
  exact ⟨both.1, both.2 "1 +" "1 +\n" (by decide) (.inr rfl)⟩

end Arith.Repl
