import Arith.Proofs.WholeText
import Mathlib.Data.List.Chain

namespace Arith

/-- One of the tokens is a colon that stands between two offsets. -/
def ColonBetween (tokens : List Token) (a b : Int) : Prop :=
  ∃ colon ∈ tokens, colon.kind = .colon ∧ a < colon.location.offset ∧ colon.location.offset < b

theorem ColonBetween.mono {tokens : List Token} {a b c : Int} (between : ColonBetween tokens a b) (further : b ≤ c) :
    ColonBetween tokens a c := by
  obtain ⟨colon, member, kind, after, before⟩ := between
  exact ⟨colon, member, kind, after, Int.lt_of_lt_of_le before further⟩

theorem ColonBetween.lt {tokens : List Token} {a b : Int} (between : ColonBetween tokens a b) : a < b := by
  obtain ⟨colon, _, _, after, before⟩ := between
  exact Int.lt_trans after before

def Spaced (tokens : List Token) (errors : Array SyntaxError) : Prop :=
  errors.toList.IsChain (fun a b => ColonBetween tokens a.location.offset b.location.offset)

namespace Parsing

@[simp] theorem ahead_report (error : SyntaxError) (p : Parsing) : (p.report error).ahead = p.ahead := by
  rw [ahead, ahead, current_report, scanner_report]

theorem report_of_panicking {p : Parsing} (panics : p.panicking = true) (error : SyntaxError) :
    (p.report error).errors = p.errors ∧ (p.report error).panicking = true := by
  simp [report, panics]

theorem report_of_calm {p : Parsing} (calm : p.panicking = false) (error : SyntaxError) :
    (p.report error).errors = p.errors.push error ∧ (p.report error).panicking = true := by
  simp [report, calm]

theorem panicking_report (error : SyntaxError) (p : Parsing) : (p.report error).panicking = true := by
  cases panics : p.panicking with
  | true => exact (report_of_panicking panics error).2
  | false => exact (report_of_calm panics error).2

theorem calm_reportPassed {passed : Array Token} {p : Parsing} (calm : (reportPassed passed p).panicking = false) :
    (reportPassed passed p).errors = p.errors ∧ p.panicking = false := by
  revert calm
  refine reportPassed_induction
    (motive := fun q => q.panicking = false → q.errors = p.errors ∧ p.panicking = false) passed ?_ ?_
  · exact fun calm => ⟨rfl, calm⟩
  · intro q token _ _ calm
    rw [panicking_report] at calm
    cases calm

theorem calm_advance {p : Parsing} (calm : p.advance.panicking = false) :
    p.advance.errors = p.errors ∧ p.panicking = false := calm_reportPassed calm

theorem errors_advance_of_end {p : Parsing} (settled : p.Settled) (stop : p.current.kind = .endOfInput) :
    p.advance.errors = p.errors ∧ p.advance.panicking = p.panicking ∧ p.advance.current = p.current := by
  unfold advance
  rw [settled.still stop]
  exact ⟨rfl, rfl, rfl⟩

/-- The errors so far stand before `edge`, with a colon between any two, and behind the last of them too unless
it still makes the parser panic. -/
structure Tracks (tokens : List Token) (edge : Int) (p : Parsing) : Prop where
  spaced : Spaced tokens p.errors
  calm : p.panicking = false → ∀ e ∈ p.errors.toList.getLast?, ColonBetween tokens e.location.offset edge
  before : ∀ e ∈ p.errors.toList.getLast?, e.location.offset < edge

namespace Tracks

variable {tokens : List Token} {edge : Int} {p : Parsing}

theorem mono {further : Int} (tracks : Tracks tokens edge p) (le : edge ≤ further) : Tracks tokens further p :=
  ⟨tracks.spaced, fun calm e last => (tracks.calm calm e last).mono le,
    fun e last => Int.lt_of_lt_of_le (tracks.before e last) le⟩

theorem congr {q : Parsing} (tracks : Tracks tokens edge p) (errors : q.errors = p.errors)
    (panicking : q.panicking = p.panicking) : Tracks tokens edge q :=
  ⟨by rw [errors]; exact tracks.spaced, by rw [errors, panicking]; exact tracks.calm,
    by rw [errors]; exact tracks.before⟩

theorem suppressed (tracks : Tracks tokens edge p) (panics : p.panicking = true) (error : SyntaxError) :
    Tracks tokens edge (p.report error) := by
  obtain ⟨errors, still⟩ := report_of_panicking panics error
  exact tracks.congr errors (still.trans panics.symm)

theorem report {error : SyntaxError} (tracks : Tracks tokens edge p) (reached : edge ≤ error.location.offset) :
    Tracks tokens (error.location.offset + 1) (p.report error) := by
  cases panics : p.panicking with
  | true => exact (tracks.suppressed panics error).mono (by omega)
  | false =>
    obtain ⟨errors, panicking⟩ := report_of_calm panics error
    have list : (p.report error).errors.toList = p.errors.toList ++ [error] := by rw [errors, Array.toList_push]
    refine ⟨?_, ?_, ?_⟩
    · rw [Spaced, list, List.isChain_append]
      refine ⟨tracks.spaced, List.isChain_singleton _, ?_⟩
      rintro e last f ⟨⟩
      exact (tracks.calm panics e last).mono reached
    · intro calm
      rw [panicking] at calm
      cases calm
    · rw [list, List.getLast?_concat]
      rintro e ⟨⟩
      omega

theorem reportPassed {bound : Int} {passed : Array Token} (tracks : Tracks tokens edge p)
    (sorted : passed.toList.Pairwise (·.location.offset < ·.location.offset))
    (reached : ∀ t ∈ passed.toList, edge ≤ t.location.offset) (bounded : ∀ t ∈ passed.toList, t.location.offset < bound)
    (le : edge ≤ bound) : Tracks tokens bound (reportPassed passed p) := by
  rw [reportPassed_eq]
  generalize passed.toList = list at sorted reached bounded
  induction list generalizing p edge with
  | nil => exact tracks.mono le
  | cons t list ih =>
    obtain ⟨first, rest⟩ := List.pairwise_cons.mp sorted
    have here := bounded t List.mem_cons_self
    rw [List.foldl_cons]
    refine ih (tracks.report (reached t List.mem_cons_self)) here rest ?_ ?_
    · exact fun u member => first u member
    · exact fun u member => bounded u (List.mem_cons_of_mem t member)

end Tracks

section Moving

variable {tokens : List Token} {p : Parsing} (sorted : tokens.Pairwise (·.location.offset < ·.location.offset))
variable (within : p.ahead <:+ tokens) (live : p.current.kind ≠ .endOfInput)

include live within

theorem ahead_advance_suffix : p.advance.ahead <:+ tokens := by
  rw [ahead_advance_of_live live, ← List.cons_append] at within
  exact (List.suffix_append _ _).trans within

include sorted

theorem pairwise_advance :
    (p.current :: (p.scanner.pull.passed.toList ++ p.advance.ahead)).Pairwise
      (·.location.offset < ·.location.offset) := by
  rw [← ahead_advance_of_live live]
  exact sorted.sublist within.sublist

theorem offset_advance_lt : p.current.location.offset < p.advance.current.location.offset := by
  obtain ⟨behind, ahead⟩ := head_ahead p.advance
  have order := (List.pairwise_cons.mp (pairwise_advance sorted within live)).1
  rw [ahead] at order
  exact order _ (List.mem_append_right _ List.mem_cons_self)

theorem Tracks.advance (tracks : Tracks tokens (p.current.location.offset + 1) p) :
    Tracks tokens p.advance.current.location.offset p.advance := by
  obtain ⟨behind, ahead⟩ := head_ahead p.advance
  obtain ⟨first, rest⟩ := List.pairwise_cons.mp (pairwise_advance sorted within live)
  rw [ahead] at first rest
  obtain ⟨passed, _, across⟩ := List.pairwise_append.mp rest
  refine Tracks.reportPassed (tracks.congr rfl rfl) passed ?_ ?_ (offset_advance_lt sorted within live)
  · exact fun t member => first t (List.mem_append_left _ member)
  · exact fun t member => across t member _ List.mem_cons_self

end Moving

/-- The edge is the current token, or just behind it where that token has been complained about. -/
def Ready (tokens : List Token) (p : Parsing) : Prop :=
  Tracks tokens p.current.location.offset p ∨
    p.panicking = true ∧ p.current.kind ≠ .colon ∧ Tracks tokens (p.current.location.offset + 1) p

namespace Ready

variable {tokens : List Token} {p : Parsing}

theorem tracks (ready : Ready tokens p) : Tracks tokens (p.current.location.offset + 1) p := by
  rcases ready with tracks | ⟨_, _, tracks⟩
  · exact tracks.mono (by omega)
  · exact tracks

theorem tracks_report (ready : Ready tokens p) (cause : SyntaxError.Cause) :
    Tracks tokens (p.current.location.offset + 1) (p.report ⟨cause, p.current⟩) := by
  rcases ready with tracks | ⟨panics, _, tracks⟩
  · have reached : p.current.location.offset ≤ (SyntaxError.location ⟨cause, p.current⟩).offset := Int.le_refl _
    exact tracks.report reached
  · exact tracks.suppressed panics _

theorem report (ready : Ready tokens p) (cause : SyntaxError.Cause) (other : p.current.kind ≠ .colon) :
    Ready tokens (p.report ⟨cause, p.current⟩) := by
  refine .inr ⟨panicking_report _ p, ?_, ?_⟩
  · rwa [current_report]
  · rw [current_report]
    exact ready.tracks_report cause

theorem congr {q : Parsing} (ready : Ready tokens p) (errors : q.errors = p.errors)
    (panicking : q.panicking = p.panicking) (current : q.current = p.current) : Ready tokens q := by
  rcases ready with tracks | ⟨panics, other, tracks⟩
  · exact .inl (by rw [current]; exact tracks.congr errors panicking)
  · exact .inr ⟨panicking.trans panics, by rwa [current], by rw [current]; exact tracks.congr errors panicking⟩

end Ready

structure Rests (tokens : List Token) (p : Parsing) : Prop where
  settled : p.Settled
  within : p.ahead <:+ tokens
  spaced : Spaced tokens p.errors
  ready : p.nestingExceeded = false → Ready tokens p

namespace Rests

variable {tokens : List Token} {p : Parsing} (sorted : tokens.Pairwise (·.location.offset < ·.location.offset))

theorem of_tracks (settled : p.Settled) (within : p.ahead <:+ tokens)
    (tracks : Tracks tokens p.current.location.offset p) : Rests tokens p :=
  ⟨settled, within, tracks.spaced, fun _ => .inl tracks⟩

theorem of_ready (settled : p.Settled) (within : p.ahead <:+ tokens) (ready : Ready tokens p) : Rests tokens p :=
  ⟨settled, within, ready.tracks.spaced, fun _ => ready⟩

include sorted

theorem pass (rests : Rests tokens p) (running : p.nestingExceeded = false) (live : p.current.kind ≠ .endOfInput) :
    Rests tokens p.advance :=
  .of_tracks (.advance p) (ahead_advance_suffix rests.within live)
    ((rests.ready running).tracks.advance sorted rests.within live)

theorem refuse (rests : Rests tokens p) (running : p.nestingExceeded = false) (cause : SyntaxError.Cause) :
    Rests tokens (p.advance.report ⟨cause, p.current⟩) := by
  have settled : (p.advance.report ⟨cause, p.current⟩).Settled := (Settled.advance p).report
  -- only at the end of the text is the token that was refused still the current one
  by_cases stop : p.current.kind = .endOfInput
  · obtain ⟨errors, panicking, current⟩ := errors_advance_of_end rests.settled stop
    have ready := (rests.ready running).congr errors panicking current
    have other : p.advance.current.kind ≠ .colon := by rw [current, stop]; decide
    rw [← current]
    refine .of_ready (Settled.advance p).report ?_ (ready.report cause other)
    rw [ahead_report, (advance_of_end rests.settled stop).2]
    exact rests.within
  · have moved := (rests.ready running).tracks.advance sorted rests.within stop
    refine .of_tracks settled (by rw [ahead_report]; exact ahead_advance_suffix rests.within stop) ?_
    rw [current_report]
    -- an invalid token right behind it would have been complained about already
    cases panics : p.advance.panicking with
    | true => exact moved.suppressed panics _
    | false =>
      obtain ⟨errors, calm⟩ := calm_advance panics
      rcases rests.ready running with tracks | ⟨panicking, _⟩
      · have here := tracks.congr errors (panics.trans calm.symm)
        have reached : p.current.location.offset ≤ (SyntaxError.location ⟨cause, p.current⟩).offset := Int.le_refl _
        exact (here.report reached).mono (offset_advance_lt sorted rests.within stop)
      · rw [calm] at panicking
        cases panicking

theorem divide (rests : Rests tokens p) (message : String) : Rests tokens (p.consume .colon message).2 := by
  rcases consume_cases .colon message p with ⟨_, same⟩ | ⟨running, divides, same⟩ | ⟨running, other, same⟩ <;>
    rw [same]
  · exact rests
  · have live : p.current.kind ≠ .endOfInput := by rw [divides]; decide
    have before : Tracks tokens p.current.location.offset p := by
      rcases rests.ready running with tracks | ⟨_, other, _⟩
      · exact tracks
      · exact absurd divides other
    obtain ⟨behind, ahead⟩ := head_ahead p
    have member : p.current ∈ tokens := rests.within.subset (by rw [ahead]; exact List.mem_cons_self)
    -- the colon itself parts the errors before it from those behind it
    have calm : Tracks tokens (p.current.location.offset + 1) { p with panicking := false } := by
      refine ⟨before.spaced, fun _ e last => ?_, (before.mono (by omega)).before⟩
      exact ⟨p.current, member, divides, before.before e last, by omega⟩
    exact .of_tracks (.advance _) (ahead_advance_suffix (p := { p with panicking := false }) rests.within live)
      (calm.advance sorted rests.within live)
  · refine .of_ready rests.settled.report ?_ ((rests.ready running).report _ other)
    rw [ahead_report]
    exact rests.within

omit sorted in
theorem exceed (rests : Rests tokens p) : Rests tokens p.exceedNesting := by
  have exceeded := nestingExceeded_exceedNesting p
  cases running : p.nestingExceeded with
  | true =>
    rwa [exceedNesting_of_exceeded running]
  | false =>
    have same := exceedNesting_of_running running
    have ready : Ready tokens { p with nestingExceeded := true } := (rests.ready running).congr rfl rfl rfl
    refine ⟨?_, ?_, ?_, fun still => ?_⟩
    · rw [same]
      exact Settled.report ⟨rests.settled.valid, rests.settled.still⟩
    · rw [same, ahead_report]
      exact rests.within
    · rw [same]
      exact (ready.tracks_report (.nestedTooDeeply maxNesting)).spaced
    · rw [exceeded] at still
      cases still

theorem move {q : Parsing} (move : Move p q) (rests : Rests tokens p) : Rests tokens q := by
  cases move with
  | pass running live => exact rests.pass sorted running live
  | refuse running refused => exact rests.refuse sorted running _
  | divide => exact rests.divide sorted dividerMessage
  | exceed => exact rests.exceed
  | descend | ascend =>
    exact ⟨⟨rests.settled.valid, rests.settled.still⟩, rests.within, rests.spaced,
      fun running => (rests.ready running).congr rfl rfl rfl⟩

theorem moves {q : Parsing} (moves : Moves p q) (rests : Rests tokens p) : Rests tokens q :=
  moves.preserve (motive := Rests tokens) (fun move rests => rests.move sorted move) rests

omit sorted in
theorem spaced_consume_end (rests : Rests tokens p) (message : String) :
    Spaced tokens (p.consume .endOfInput message).2.errors := by
  rcases consume_cases .endOfInput message p with ⟨_, same⟩ | ⟨_, stop, same⟩ | ⟨running, _, same⟩ <;> rw [same]
  · exact rests.spaced
  · -- the end ends the panic too, but nothing is left to complain about
    have settled : Settled { p with panicking := false } := ⟨rests.settled.valid, rests.settled.still⟩
    rw [(errors_advance_of_end settled stop).1]
    exact rests.spaced
  · exact ((rests.ready running).tracks_report _).spaced

end Rests

theorem rests_start (s : Scanner) : Rests s.tokens (start s) := by
  have split := tokens_eq_start s
  obtain ⟨behind, ahead⟩ := head_ahead (start s)
  have sorted := s.tokens_pairwise_offset
  have reached := s.position_le_offset_tokens
  rw [split, ahead] at sorted reached
  obtain ⟨passed, _, across⟩ := List.pairwise_append.mp sorted
  refine .of_tracks (.start s) (by rw [split]; exact List.suffix_append _ _) ?_
  have empty : ∀ p : Parsing, p.errors = #[] → Tracks s.tokens s.position.offset p := by
    intro p none
    refine ⟨?_, ?_, ?_⟩ <;> simp [Spaced, none]
  refine Tracks.reportPassed (empty _ rfl) passed ?_ ?_ ?_
  · exact fun t member => reached t (List.mem_append_left _ member)
  · exact fun t member => across t member _ List.mem_cons_self
  · exact reached _ (List.mem_append_right _ List.mem_cons_self)

theorem spaced_expression (s : Scanner) : Spaced s.tokens (start s).expression.2.errors := by
  rw [expression_eq]
  exact ((rests_start s).moves s.tokens_pairwise_offset (moves_parse .conditional (start s))).spaced_consume_end _

end Parsing

theorem Spaced.pairwise {tokens : List Token} {errors : Array SyntaxError} (spaced : Spaced tokens errors) :
    errors.toList.Pairwise (·.location.offset < ·.location.offset) := by
  have increasing : errors.toList.IsChain (·.location.offset < ·.location.offset) :=
    List.IsChain.imp (fun _ _ between => between.lt) spaced
  rw [← List.isChain_map, List.isChain_iff_pairwise, List.pairwise_map] at increasing
  exact increasing

theorem countP_lt_countP {α : Type} {p q : α → Bool} {l : List α} (weaker : ∀ x ∈ l, p x = true → q x = true)
    {x : α} (member : x ∈ l) (holds : q x = true) (fails : p x ≠ true) : l.countP p < l.countP q := by
  obtain ⟨front, back, rfl⟩ := List.append_of_mem member
  have before := List.countP_mono_left (p := p) (q := q) fun y mem => weaker y (List.mem_append_left _ mem)
  have behind := List.countP_mono_left (p := p) (q := q) fun y mem =>
    weaker y (List.mem_append_right _ (List.mem_cons_of_mem x mem))
  rw [List.countP_append, List.countP_append, List.countP_cons_of_neg fails, List.countP_cons_of_pos holds]
  omega

theorem length_le_colons {tokens : List Token} {first : SyntaxError} {errors : List SyntaxError}
    (spaced : (first :: errors).IsChain fun a b => ColonBetween tokens a.location.offset b.location.offset) :
    errors.length ≤ tokens.countP (fun t => t.kind = .colon ∧ first.location.offset < t.location.offset) := by
  induction errors generalizing first with
  | nil => exact Nat.zero_le _
  | cons second errors ih =>
    obtain ⟨⟨colon, member, kind, after, before⟩, rest⟩ := List.isChain_cons_cons.mp spaced
    refine Nat.lt_of_le_of_lt (ih rest) (countP_lt_countP ?_ member ?_ ?_)
    · intro t _ later
      simp only [decide_eq_true_eq] at later ⊢
      exact ⟨later.1, by omega⟩
    · exact decide_eq_true ⟨kind, after⟩
    · intro later
      have behind := (of_decide_eq_true later).2
      omega

theorem Spaced.size_le {tokens : List Token} {errors : Array SyntaxError} (spaced : Spaced tokens errors) :
    errors.size ≤ 1 + tokens.countP (·.kind = .colon) := by
  rw [Spaced] at spaced
  rw [← Array.length_toList]
  cases list : errors.toList with
  | nil => exact Nat.zero_le _
  | cons first behind =>
    rw [list] at spaced
    have few := length_le_colons spaced
    have all := List.countP_mono_left (l := tokens)
      (p := fun t => t.kind = .colon ∧ first.location.offset < t.location.offset) (q := (·.kind = .colon))
      (fun t _ both => by simp only [decide_eq_true_eq] at both ⊢; exact both.1)
    rw [List.length_cons]
    omega

/-- Errors are recorded in the order of the text, at most one in each region between colons. -/
theorem errors_spaced (source filename : String) :
    (Parsing.ofSource source filename).expression.2.errors.toList.Pairwise
        (·.location.offset < ·.location.offset) ∧
      (Parsing.ofSource source filename).expression.2.errors.toList.IsChain (fun a b =>
        ∃ colon ∈ tokenize source filename, colon.kind = .colon ∧
          a.location.offset < colon.location.offset ∧ colon.location.offset < b.location.offset) ∧
      (Parsing.ofSource source filename).expression.2.errors.size ≤
        1 + (tokenize source filename).countP (·.kind = .colon) := by
  have spaced : Spaced (tokenize source filename).toList (Parsing.ofSource source filename).expression.2.errors :=
    Parsing.spaced_expression (.ofSource source filename)
  refine ⟨spaced.pairwise, ?_, ?_⟩
  · refine List.IsChain.imp ?_ spaced
    rintro a b ⟨colon, member, between⟩
    exact ⟨colon, Array.mem_toList_iff.mp member, between⟩
  · have few := spaced.size_le
    rwa [Array.countP_toList] at few

end Arith
