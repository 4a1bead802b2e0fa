import Arith.Proofs.ParserInvariants

namespace Arith.Parsing

/-- From `p` to `q` the parser stayed, or it stepped over the current token and over `passed` behind it. Each of
`passed` was reported as invalid, and then `others` were reported. -/
structure Stride (p q : Parsing) (passed : List Token) (others : List SyntaxError) : Prop where
  ahead : q.ahead = p.ahead ∧ passed = [] ∨ p.current.kind ≠ .endOfInput ∧ p.ahead = p.current :: (passed ++ q.ahead)
  invalid : ∀ t ∈ passed, t.kind = .invalid ∧ t.lexeme = unexpectedCharacter
  reported : q.reported = p.reported ++ (passed.map (⟨.lexical, ·⟩) ++ others)
  others : ∀ e ∈ others, e.cause ≠ .lexical

namespace Stride

variable {p q : Parsing} {passed : List Token} {others : List SyntaxError}

theorem nothing (ahead : q.ahead = p.ahead) (reported : q.reported = p.reported) : Stride p q [] [] :=
  ⟨.inl ⟨ahead, rfl⟩, by simp, by simp [reported], by simp⟩

theorem advance (settled : p.Settled) : ∃ passed, Stride p p.advance passed [] := by
  by_cases stop : p.current.kind = .endOfInput
  · obtain ⟨reported, ahead⟩ := advance_of_end settled stop
    exact ⟨[], .nothing ahead reported⟩
  · refine ⟨p.scanner.pull.passed.toList, .inr ⟨stop, ahead_advance_of_live stop⟩, fun t member => ?_, ?_, by simp⟩
    · exact ⟨p.scanner.kind_passed_pull t member, p.scanner.message_passed_pull t member⟩
    · rw [reported_advance, List.append_nil]

theorem report {error : SyntaxError} (stride : Stride p q passed others) (other : error.cause ≠ .lexical) :
    Stride p (q.report error) passed (others ++ [error]) := by
  refine ⟨?_, stride.invalid, ?_, ?_⟩
  · rw [ahead_report]
    exact stride.ahead
  · rw [reported_report, stride.reported, List.append_assoc, List.append_assoc]
  · exact List.forall_mem_append.mpr ⟨stride.others, List.forall_mem_singleton.mpr other⟩

theorem suffix (stride : Stride p q passed others) : q.ahead <:+ p.ahead := by
  rcases stride.ahead with ⟨same, _⟩ | ⟨_, split⟩
  · exact same ▸ List.suffix_refl _
  · rw [split, ← List.cons_append]
    exact List.suffix_append _ _

end Stride

theorem Refused.not_lexical {token : Token} {cause : SyntaxError.Cause} (refused : Refused token cause) :
    cause ≠ .lexical := by
  cases refused <;> exact nofun

theorem Turn.stride {p q : Parsing} (turn : Turn p q) (settled : p.Settled) :
    ∃ passed others, Stride p q passed others := by
  cases turn with
  | advance =>
    obtain ⟨passed, stride⟩ := Stride.advance settled
    exact ⟨passed, _, stride⟩
  | refuse refused =>
    obtain ⟨passed, stride⟩ := Stride.advance settled
    exact ⟨passed, _, stride.report refused.not_lexical⟩
  | consume expected message =>
    rcases consume_cases expected message p with ⟨_, same⟩ | ⟨_, _, same⟩ | ⟨_, _, same⟩ <;> rw [same]
    · exact ⟨_, _, .nothing rfl rfl⟩
    · have calm : Settled { p with panicking := false } := ⟨settled.valid, settled.still⟩
      obtain ⟨passed, stride⟩ := Stride.advance calm
      exact ⟨passed, _, stride.ahead, stride.invalid, stride.reported, stride.others⟩
    · exact ⟨_, _, (Stride.nothing rfl rfl).report nofun⟩
  | exceed =>
    cases running : p.nestingExceeded with
    | true =>
      rw [exceedNesting_of_exceeded running]
      exact ⟨_, _, .nothing rfl rfl⟩
    | false =>
      have flagged : Stride p { p with nestingExceeded := true } [] [] := .nothing rfl rfl
      rw [exceedNesting_of_running running]
      exact ⟨_, _, flagged.report nofun⟩
  | descend | ascend => exact ⟨_, _, .nothing rfl rfl⟩

theorem Turns.ahead_suffix {p q : Parsing} (turns : Turns p q) (settled : p.Settled) : q.ahead <:+ p.ahead := by
  have both := turns.preserve (motive := fun q => q.Settled ∧ q.ahead <:+ p.ahead) ?_ ⟨settled, List.suffix_refl _⟩
  · exact both.2
  · intro a b turn kept
    obtain ⟨passed, others, stride⟩ := turn.stride kept.1
    exact ⟨turn.turns.settled kept.1, stride.suffix.trans kept.2⟩

theorem Turns.current_of_end {p q : Parsing} (turns : Turns p q) (settled : p.Settled)
    (stop : p.current.kind = .endOfInput) : q.current = p.current := by
  obtain ⟨behind, ahead⟩ := head_ahead q
  have rest := turns.ahead_suffix settled
  rw [ahead_of_end stop, ahead] at rest
  exact List.mem_singleton.mp (rest.subset List.mem_cons_self)

theorem ahead_start_suffix (s : Scanner) : (start s).ahead <:+ s.tokens := by
  rw [tokens_eq_start]
  exact List.suffix_append _ _

def Ascends (p : Parsing) : Prop := p.ahead.Pairwise (·.location.offset < ·.location.offset)

namespace Ascends

variable {p q : Parsing}

theorem start (s : Scanner) : (start s).Ascends :=
  List.Pairwise.sublist (ahead_start_suffix s).sublist s.tokens_pairwise_offset

theorem of_suffix (ascends : p.Ascends) (rest : q.ahead <:+ p.ahead) : q.Ascends :=
  List.Pairwise.sublist rest.sublist ascends

theorem le_current (ascends : p.Ascends) : ∀ t ∈ p.ahead, p.current.location.offset ≤ t.location.offset := by
  obtain ⟨behind, ahead⟩ := head_ahead p
  rw [Ascends, ahead, List.pairwise_cons] at ascends
  intro t member
  rw [ahead] at member
  rcases List.mem_cons.mp member with rfl | member
  · exact Int.le_refl _
  · exact Int.le_of_lt (ascends.1 t member)

theorem current_le (ascends : p.Ascends) (rest : q.ahead <:+ p.ahead) :
    p.current.location.offset ≤ q.current.location.offset := by
  obtain ⟨behind, ahead⟩ := head_ahead q
  apply ascends.le_current
  apply rest.subset
  rw [ahead]
  exact List.mem_cons_self

end Ascends

end Arith.Parsing
