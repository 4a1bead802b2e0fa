import Arith.Proofs.TokenTiling
import Mathlib.Data.List.DropRight
import Mathlib.Logic.Relation

namespace Arith

def lastLine (text : List Char) : List Char := text.rtakeWhile (· ≠ '\n')

theorem lastLine_concat (text : List Char) (c : Char) :
    lastLine (text ++ [c]) = if c = '\n' then [] else lastLine text ++ [c] := by
  by_cases feed : c = '\n' <;> simp [lastLine, feed]

theorem Position.after_origin (text : List Char) :
    origin.after text = ⟨text.length, 1 + text.count '\n', 1 + (lastLine text).length⟩ := by
  induction text using List.reverseRecOn with
  | nil => rfl
  | append_singleton text c ih =>
    rw [after_append, ih, after_cons, after_nil, lastLine_concat, step]
    by_cases feed : c = '\n' <;> simp [feed, Nat.add_assoc]

/-- The location counts lines and columns as they are in the text up to its offset. -/
structure Location.Counts (text : List Char) (l : Location) : Prop where
  nonneg : 0 ≤ l.offset
  offset_le : l.offset ≤ text.length
  line : l.line = 1 + (text.take l.offset.toNat).count '\n'
  column : l.column = 1 + (lastLine (text.take l.offset.toNat)).length

theorem Token.Genuine.counts {text : List Char} {filename : String} {t : Token} (genuine : t.Genuine text filename)
    (stands : t.StandsIn text) : t.location.Counts text := by
  obtain ⟨front, taken, behind, split, offset, _⟩ := stands
  have inside : front.length ≤ text.length := by simp [split]
  have place := genuine.location
  rw [Position.after_origin] at place
  refine ⟨by omega, by omega, ?_, ?_⟩
  · have line := congrArg Location.line place
    simpa [Position.inText] using line
  · have column := congrArg Location.column place
    simpa [Position.inText] using column

namespace Scanner

inductive Step : Scanner → Scanner → Prop where
  | read {s t : Scanner} {c : Char} (more : s.advance? = some (c, t)) : Step s t
  | mark (s : Scanner) : Step s { s with tokenStart := s.position.offset }

def Steps : Scanner → Scanner → Prop := Relation.ReflTransGen Step

theorem Steps.refl (s : Scanner) : s.Steps s := Relation.ReflTransGen.refl

theorem Steps.trans {s t u : Scanner} (first : s.Steps t) (second : t.Steps u) : s.Steps u :=
  Relation.ReflTransGen.trans first second

theorem Step.steps {s t : Scanner} (step : s.Step t) : s.Steps t := Relation.ReflTransGen.single step

theorem Steps.preserve {motive : Scanner → Prop} {s t : Scanner} (steps : s.Steps t)
    (step : ∀ {a b : Scanner}, a.Step b → motive a → motive b) (here : motive s) : motive t := by
  induction steps with
  | refl => exact here
  | tail _ next ih => exact step next ih

theorem advance?_eq_some_iff {s t : Scanner} {c : Char} :
    s.advance? = some (c, t) ↔
      ∃ rest, s.rest = c :: rest ∧ t = { s with rest, position := s.position.step c } := by
  unfold advance?
  cases s.rest with
  | nil => simp
  | cons d rest =>
    simp only [Option.some.injEq, Prod.mk.injEq, List.cons.injEq]
    constructor
    · rintro ⟨rfl, rfl⟩
      exact ⟨rest, ⟨rfl, rfl⟩, rfl⟩
    · rintro ⟨_, ⟨rfl, rfl⟩, rfl⟩
      exact ⟨rfl, rfl⟩

theorem step_of_cons {s : Scanner} {c : Char} {rest : List Char} (text : s.rest = c :: rest) :
    s.Step { s with rest, position := s.position.step c } :=
  .read (advance?_eq_some_iff.mpr ⟨rest, text, rfl⟩)

theorem steps_readWhile (p : Char → Bool) (s : Scanner) : s.Steps (s.readWhile p) := by
  obtain ⟨filename, rest, position, tokenStart⟩ := s
  induction rest generalizing position with
  | nil => exact .refl _
  | cons c rest ih =>
    by_cases holds : p c = true
    · have first := (step_of_cons (s := ⟨filename, c :: rest, position, tokenStart⟩) rfl).steps
      apply first.trans
      simpa [readWhile, holds] using ih (position.step c)
    · simpa [readWhile, holds] using Steps.refl _

theorem steps_readToken (s : Scanner) : s.Steps s.readToken.2 := by
  have marked := (Step.mark s).steps
  cases text : s.rest with
  | nil =>
    rw [readToken_of_nil text]
    exact marked
  | cons c rest =>
    have first := marked.trans (step_of_cons (s := { s with tokenStart := s.position.offset }) text).steps
    by_cases digit : isDigit c = true
    · rw [readToken_of_digit text digit]
      exact marked.trans (steps_readWhile isDigit _)
    · cases operator : Token.Kind.ofOperator? c with
      | some kind =>
        rw [readToken_of_operator text operator]
        exact first
      | none =>
        rw [readToken_of_foreign text (by simpa using digit) operator]
        exact first

theorem steps_scan (s : Scanner) : s.Steps s.scan.2 :=
  (steps_readWhile isWhitespace s).trans (steps_readToken s.skipWhitespace)

theorem steps_tokenizeOnto (found : Array Token) (s : Scanner) : s.Steps (s.tokenizeOnto found).2 := by
  induction s using scanInduction generalizing found with
  | ended s stop =>
    rw [tokenizeOnto_of_end _ stop]
    exact steps_scan s
  | more s stop ih =>
    rw [tokenizeOnto_of_more _ stop]
    exact (steps_scan s).trans (ih _)

theorem steps_perform (command : Command) (s : Scanner) : s.Steps (s.perform command).2 := by
  cases command with
  | scan => exact steps_scan s
  | tokenize => exact steps_tokenizeOnto _ s
  | peek | atEnd => exact .refl s
  | advance =>
    cases read : s.advance? with
    | none => simpa only [perform, read] using Steps.refl s
    | some next => simpa only [perform, read] using (Step.read read).steps
  | skip => exact steps_readWhile isWhitespace s

theorem steps_run (commands : List Command) (s : Scanner) : s.Steps (s.run commands) := by
  induction commands generalizing s with
  | nil => exact .refl s
  | cons command commands ih => exact (steps_perform command s).trans (ih _)

/-- The counters of a scanner that is somewhere in `text`, counted afresh. -/
structure Cursor (text : List Char) (s : Scanner) : Prop where
  start_le : s.tokenStart ≤ s.position.offset
  offset_le : s.position.offset ≤ text.length
  rest : s.rest = text.drop s.position.offset
  line : s.position.line = 1 + (text.take s.position.offset).count '\n'
  column : s.position.column = 1 + (lastLine (text.take s.position.offset)).length

structure Forward (s t : Scanner) : Prop where
  start : s.tokenStart ≤ t.tokenStart
  offset : s.position.offset ≤ t.position.offset

variable {text : List Char} {filename : String} {s t : Scanner}

theorem Within.cursor (within : Within text filename s) (start : s.tokenStart ≤ s.position.offset) :
    Cursor text s := by
  have position := within.position
  rw [Position.after_origin] at position
  exact ⟨start, within.offset_le, within.rest, congrArg Position.line position, congrArg Position.column position⟩

theorem Step.within (step : s.Step t) (within : Within text filename s) : Within text filename t := by
  cases step with
  | read more =>
    obtain ⟨rest, split, rfl⟩ := advance?_eq_some_iff.mp more
    exact within.read [_] split rfl rfl
  | mark => exact ⟨within.filename, within.split⟩

theorem Step.start_le (step : s.Step t) (start : s.tokenStart ≤ s.position.offset) :
    t.tokenStart ≤ t.position.offset := by
  cases step with
  | read more =>
    obtain ⟨rest, _, rfl⟩ := advance?_eq_some_iff.mp more
    rw [Position.offset_step]
    exact Nat.le_succ_of_le start
  | mark => exact Nat.le_refl _

theorem Step.offset_le (step : s.Step t) : s.position.offset ≤ t.position.offset := by
  cases step with
  | read more =>
    obtain ⟨rest, _, rfl⟩ := advance?_eq_some_iff.mp more
    rw [Position.offset_step]
    omega
  | mark => exact Nat.le_refl _

theorem Step.forward (step : s.Step t) (start : s.tokenStart ≤ s.position.offset) : s.Forward t := by
  refine ⟨?_, step.offset_le⟩
  cases step with
  | read more =>
    obtain ⟨rest, _, rfl⟩ := advance?_eq_some_iff.mp more
    exact Nat.le_refl _
  | mark => exact start

theorem Steps.within (steps : s.Steps t) (within : Within text filename s) : Within text filename t :=
  steps.preserve (motive := Within text filename) Step.within within

theorem Steps.offset_le (steps : s.Steps t) : s.position.offset ≤ t.position.offset :=
  steps.preserve (motive := fun t => s.position.offset ≤ t.position.offset) (fun step le => le.trans step.offset_le)
    (Nat.le_refl _)

theorem Steps.start_le (steps : s.Steps t) (start : s.tokenStart ≤ s.position.offset) :
    t.tokenStart ≤ t.position.offset :=
  steps.preserve (motive := fun t => t.tokenStart ≤ t.position.offset) Step.start_le start

theorem Steps.forward (steps : s.Steps t) (start : s.tokenStart ≤ s.position.offset) : s.Forward t := by
  induction steps with
  | refl => exact ⟨Nat.le_refl _, Nat.le_refl _⟩
  | tail before step ih =>
    have next := step.forward (Steps.start_le before start)
    exact ⟨Nat.le_trans ih.start next.start, Nat.le_trans ih.offset next.offset⟩

def Answer.given : Answer → List Token
  | token t => [t]
  | tokens ts => ts.toList
  | _ => []

theorem scan_mem_tokens (s : Scanner) : s.scan.1 ∈ s.tokens := by
  by_cases stop : s.scan.1.kind = .endOfInput
  · rw [tokens_of_end stop]
    exact List.mem_singleton_self _
  · rw [tokens_of_more stop]
    exact List.mem_cons_self

theorem given_perform (command : Command) (s : Scanner) : ∀ t ∈ (s.perform command).1.given, t ∈ s.tokens := by
  intro t member
  cases command with
  | scan =>
    rw [List.mem_singleton.mp member]
    exact scan_mem_tokens s
  | tokenize => exact member
  | advance => cases read : s.advance? <;> simp [perform, read, Answer.given] at member
  | peek | skip | atEnd => cases member

theorem Within.counts (within : Within text filename s) : ∀ t ∈ s.tokens, t.location.Counts text :=
  fun t member => (genuine_tokens within t member).counts ((tiles_tokens within).stands t member).2

theorem Within.rest_eq_nil_iff (within : Within text filename s) :
    s.rest = [] ↔ s.position.offset = text.length := by
  have bound := within.offset_le
  rw [within.rest, List.drop_eq_nil_iff]
  omega

theorem perform_advance_pastEnd_iff (s : Scanner) : (s.perform .advance).1 = .pastEnd ↔ s.rest = [] := by
  unfold perform advance?
  cases s.rest <;> simp

theorem perform_advance_of_nil (ended : s.rest = []) : (s.perform .advance).2 = s := by
  simp [perform, advance?, ended]

def endToken (text : List Char) (filename : String) : Token :=
  ⟨.endOfInput, "", (Position.origin.after text).inText filename⟩

theorem offset_endToken (text : List Char) (filename : String) :
    (endToken text filename).location.offset = text.length := by
  show ((Position.origin.after text).offset : Int) = text.length
  rw [Position.after_origin]

theorem Within.scan_of_end (within : Within text filename s) (ended : s.position.offset = text.length) :
    s.scan.1 = endToken text filename := by
  have empty := within.rest_eq_nil_iff.mpr ended
  have position := within.position
  rw [ended, List.take_length] at position
  have blank : s.skipWhitespace = s := by
    cases s
    cases empty
    rfl
  rw [Scanner.scan, blank, readToken_of_nil empty, position, within.filename]
  rfl

theorem Within.tokenize_of_end (within : Within text filename s) (ended : s.position.offset = text.length) :
    s.tokenize.1 = #[endToken text filename] := by
  have first := within.scan_of_end ended
  apply Array.toList_inj.mp
  show s.tokens = [endToken text filename]
  rw [tokens_of_end (by rw [first]; rfl), first]

theorem Within.at_end (within : Within text filename s) (ended : s.position.offset = text.length)
    (more : List Command) : (s.run more).position.offset = text.length := by
  have reached := (steps_run more s).offset_le
  have bound := ((steps_run more s).within within).offset_le
  omega

/-- Wherever commands lead a scanner, and at every moment on the way, its counters are what can be counted in the
text; its tokens are located so too; and at the end of the text nothing but the end token is ever found. -/
theorem cursor_counts (source filename : String) (commands : List Command) :
    let text := source.toList
    let s := (ofSource source filename).run commands
    (∀ command, s.Steps (s.perform command).2) ∧
      (∀ t, s.Steps t → Cursor text t ∧ s.Forward t) ∧
      (∀ command, ∀ t ∈ (s.perform command).1.given, t.location.Counts text) ∧
      ((s.perform .advance).1 = .pastEnd ↔ s.position.offset = text.length) ∧
      (endToken text filename).location.offset = text.length ∧
      (s.position.offset = text.length → (s.perform .advance).2 = s ∧ ∀ more,
        let t := s.run more
        t.position.offset = text.length ∧ (t.perform .scan).1 = .token (endToken text filename) ∧
          (t.perform .tokenize).1 = .tokens #[endToken text filename]) := by
  intro text s
  have within : Within text filename s := within_run source filename commands
  have start : s.tokenStart ≤ s.position.offset := (steps_run commands (ofSource source filename)).start_le (Nat.le_refl 0)
  refine ⟨fun command => steps_perform command s, ?_, ?_, ?_, offset_endToken text filename, ?_⟩
  · intro t steps
    exact ⟨(steps.within within).cursor (steps.start_le start), steps.forward start⟩
  · intro command t member
    exact within.counts t (given_perform command s t member)
  · rw [perform_advance_pastEnd_iff, within.rest_eq_nil_iff]
  · intro ended
    refine ⟨perform_advance_of_nil (within.rest_eq_nil_iff.mpr ended), fun more => ?_⟩
    have later := (steps_run more s).within within
    have still := within.at_end ended more
    exact ⟨still, congrArg Answer.token (later.scan_of_end still), congrArg Answer.tokens (later.tokenize_of_end still)⟩

end Scanner

end Arith
