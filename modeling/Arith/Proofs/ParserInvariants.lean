import Arith.Proofs.PanicRecovery
import Arith.Proofs.ParserTurns
import Arith.Proofs.TokenReading

namespace Arith

/-- The error points at its own token, and one of the tables lists its code. -/
structure SyntaxError.Listed (e : SyntaxError) : Prop where
  location : e.diagnostic.location = e.token.location
  code : ∃ code ∈ ErrorCode.lexical ++ ErrorCode.syntactic, e.diagnostic.code = some code.label

theorem SyntaxError.code?_lexical {token : Token} (message : token.lexeme = unexpectedCharacter) :
    code? ⟨.lexical, token⟩ = some .unexpectedCharacter := by
  simp [code?, message, ErrorCode.lexical, ErrorCode.description]

theorem SyntaxError.listed_lexical {token : Token} (message : token.lexeme = unexpectedCharacter) :
    Listed ⟨.lexical, token⟩ := by
  refine ⟨rfl, .unexpectedCharacter, by decide, ?_⟩
  rw [diagnostic, code?_lexical message]
  rfl

theorem SyntaxError.listed_missing (expected : Token.Kind) (message : String) (token : Token) :
    Listed ⟨.missing expected message, token⟩ := by
  by_cases stop : expected = .endOfInput
  · subst stop
    exact ⟨rfl, .trailingInput, by decide, rfl⟩
  · exact ⟨rfl, .expectedToken, by decide, by cases expected <;> first | rfl | exact absurd rfl stop⟩

theorem SyntaxError.listed_refused {token : Token} {cause : Cause} (refused : Parsing.Refused token cause) :
    Listed ⟨cause, token⟩ := by
  cases refused with
  | expectedExpression => exact ⟨rfl, .expectedExpression, by decide, rfl⟩
  | numberTooLarge => exact ⟨rfl, .numberTooLarge, by decide, rfl⟩

theorem SyntaxError.listed_nestedTooDeeply (limit : Int) (token : Token) : Listed ⟨.nestedTooDeeply limit, token⟩ :=
  ⟨rfl, .nestedTooDeeply, by decide, rfl⟩

theorem Scanner.message_scan {s : Scanner} (invalid : s.scan.1.kind = .invalid) :
    s.scan.1.lexeme = unexpectedCharacter := by
  obtain ⟨gap, taken, reading⟩ := s.reading_scan
  exact reading.message invalid

theorem Scanner.message_passed_pull (s : Scanner) : ∀ t ∈ s.pull.passed.toList, t.lexeme = unexpectedCharacter := by
  induction s using pullInduction with
  | valid s valid => simp [pull_of_valid valid]
  | invalid s invalid ih =>
    intro t member
    simp only [pull_of_invalid invalid, Array.toList_append, List.cons_append, List.nil_append,
      List.mem_cons] at member
    rcases member with rfl | member
    · exact message_scan invalid
    · exact ih t member

structure Parser.Consistent (p : Parser) : Prop where
  current : p.current.kind ≠ .invalid
  previous : ∀ t ∈ p.previous, t.kind ≠ .invalid
  hadError : p.hadError = true ↔ p.errors ≠ #[]
  panicking : p.panicking = true → p.hadError = true
  nestingExceeded : p.nestingExceeded = true → p.panicking = true
  errors : ∀ e ∈ p.errors, e.Listed

namespace Parsing

theorem forall_mem_push {errors : Array SyntaxError} {error : SyntaxError} (listed : ∀ e ∈ errors, e.Listed)
    (last : error.Listed) : ∀ e ∈ errors.push error, e.Listed := by
  intro e member
  rcases Array.mem_push.mp member with member | rfl
  · exact listed e member
  · exact last

section Consistent

variable {p : Parsing}

theorem consistent_report_exceeded {error : SyntaxError} (exceeded : Bool) (consistent : p.Consistent)
    (listed : error.Listed) : ({ p with nestingExceeded := exceeded }.report error).Consistent := by
  -- the error makes the parser panic, so its flag may be set just before
  unfold report
  split
  · rename_i panics
    exact ⟨consistent.current, consistent.previous, consistent.hadError, consistent.panicking, fun _ => panics,
      consistent.errors⟩
  · exact ⟨consistent.current, consistent.previous, by simp, fun _ => rfl, fun _ => rfl,
      forall_mem_push consistent.errors listed⟩

theorem consistent_report {error : SyntaxError} (consistent : p.Consistent) (listed : error.Listed) :
    (p.report error).Consistent := consistent_report_exceeded p.nestingExceeded consistent listed

theorem consistent_reportPassed {passed : Array Token} (consistent : p.Consistent)
    (messages : ∀ t ∈ passed.toList, t.lexeme = unexpectedCharacter) : (reportPassed passed p).Consistent :=
  reportPassed_induction (motive := fun q => q.Consistent) passed consistent
    (fun _ t member kept => consistent_report kept (SyntaxError.listed_lexical (messages t member)))

theorem consistent_start (source : Scanner) : (start source).Consistent := by
  refine consistent_reportPassed ⟨?_, nofun, by simp, nofun, nofun, by simp⟩ source.message_passed_pull
  exact source.kind_pull_ne_invalid

theorem consistent_advance (consistent : p.Consistent) : p.advance.Consistent := by
  refine consistent_reportPassed ⟨?_, ?_, consistent.hadError, consistent.panicking, consistent.nestingExceeded,
    consistent.errors⟩ p.scanner.message_passed_pull
  · exact p.scanner.kind_pull_ne_invalid
  · rintro t ⟨⟩
    exact consistent.current

theorem consistent_consume (expected : Token.Kind) (message : String) (consistent : p.Consistent) :
    (p.consume expected message).2.Consistent := by
  rcases consume_cases expected message p with ⟨_, same⟩ | ⟨running, _, same⟩ | ⟨_, _, same⟩ <;> rw [same]
  · exact consistent
  · refine consistent_advance (p := { p with panicking := false }) ⟨consistent.current, consistent.previous,
      consistent.hadError, nofun, fun exceeded => ?_, consistent.errors⟩
    rw [running] at exceeded
    cases exceeded
  · exact consistent_report consistent (SyntaxError.listed_missing _ _ _)

theorem consistent_exceed (consistent : p.Consistent) : p.exceedNesting.Consistent := by
  unfold exceedNesting
  split
  · exact consistent
  · exact consistent_report_exceeded true consistent (SyntaxError.listed_nestedTooDeeply _ _)

end Consistent

theorem Turns.consistent {p q : Parsing} (turns : Turns p q) (consistent : p.Consistent) : q.Consistent := by
  refine turns.preserve (motive := fun q => q.Consistent) ?_ consistent
  intro a b turn consistent
  cases turn with
  | advance => exact consistent_advance consistent
  | refuse refused => exact consistent_report (consistent_advance consistent) (SyntaxError.listed_refused refused)
  | consume expected message => exact consistent_consume expected message consistent
  | exceed => exact consistent_exceed consistent
  | descend | ascend =>
    exact ⟨consistent.current, consistent.previous, consistent.hadError, consistent.panicking,
      consistent.nestingExceeded, consistent.errors⟩

theorem panicking_expression {p : Parsing} (settled : p.Settled) (consistent : p.Consistent) :
    p.expression.2.panicking = true ↔
      p.expression.2.nestingExceeded = true ∨ p.expression.2.current.kind ≠ .endOfInput := by
  have turns := (moves_parse .conditional p).turns
  have settled := turns.settled settled
  have consistent := turns.consistent consistent
  rw [expression_eq]
  generalize (p.parse .conditional).2 = q at settled consistent
  dsimp only
  rcases consume_cases .endOfInput trailingMessage q with
    ⟨exceeded, same⟩ | ⟨running, stop, same⟩ | ⟨running, more, same⟩ <;> rw [same]
  · exact ⟨fun _ => .inl exceeded, fun _ => consistent.nestingExceeded exceeded⟩
  · -- behind the end of the text the end is found again, and nothing that could be complained about
    have still : Settled { q with panicking := false } := ⟨settled.valid, settled.still⟩
    obtain ⟨_, panicking, current⟩ := errors_advance_of_end still stop
    rw [panicking, nestingExceeded_advance, current]
    simp [running, stop]
  · refine ⟨fun _ => .inr ?_, fun _ => panicking_report _ q⟩
    rwa [current_report]

end Parsing

def Report.recorded? : Report → Option SyntaxError
  | recorded error => some error
  | suppressed _ => none

namespace Parsing

/-- From `p` to `q` no flag was cleared, and the errors that were recorded were kept behind those before. -/
structure Grows (p q : Parsing) : Prop where
  hadError : p.hadError = true → q.hadError = true
  nestingExceeded : p.nestingExceeded = true → q.nestingExceeded = true
  recorded : ∃ reports : List Report, q.reports.toList = p.reports.toList ++ reports ∧
    q.errors.toList = p.errors.toList ++ reports.filterMap Report.recorded?

namespace Grows

theorem of_eq {p q : Parsing} (hadError : q.hadError = p.hadError)
    (nestingExceeded : p.nestingExceeded = true → q.nestingExceeded = true) (reports : q.reports = p.reports)
    (errors : q.errors = p.errors) : Grows p q :=
  ⟨fun had => hadError.trans had, nestingExceeded, [], by simp [reports], by simp [errors]⟩

theorem refl (p : Parsing) : Grows p p := of_eq rfl id rfl rfl

theorem trans {p q r : Parsing} (first : Grows p q) (second : Grows q r) : Grows p r := by
  obtain ⟨new, reports, errors⟩ := first.recorded
  obtain ⟨newer, reports', errors'⟩ := second.recorded
  refine ⟨second.hadError ∘ first.hadError, second.nestingExceeded ∘ first.nestingExceeded, new ++ newer, ?_, ?_⟩
  · rw [reports', reports, List.append_assoc]
  · rw [errors', errors, List.filterMap_append, List.append_assoc]

theorem report (error : SyntaxError) (p : Parsing) : Grows p (p.report error) := by
  cases panics : p.panicking with
  | true =>
    refine ⟨?_, ?_, [.suppressed error], ?_, ?_⟩ <;> simp [Parsing.report, panics, Report.recorded?]
  | false =>
    refine ⟨?_, ?_, [.recorded error], ?_, ?_⟩ <;> simp [Parsing.report, panics, Report.recorded?]

theorem reportPassed (passed : Array Token) (p : Parsing) : Grows p (reportPassed passed p) :=
  reportPassed_induction (motive := Grows p) passed (refl p) (fun q _ _ grows => grows.trans (report _ q))

theorem advance (p : Parsing) : Grows p p.advance := by
  refine Grows.trans ?_ (reportPassed _ _)
  exact of_eq rfl id rfl rfl

theorem consume (expected : Token.Kind) (message : String) (p : Parsing) : Grows p (p.consume expected message).2 := by
  rcases consume_cases expected message p with ⟨_, same⟩ | ⟨_, _, same⟩ | ⟨_, _, same⟩ <;> rw [same]
  · exact refl p
  · refine Grows.trans ?_ (advance { p with panicking := false })
    exact of_eq rfl id rfl rfl
  · exact report _ p

theorem exceed (p : Parsing) : Grows p p.exceedNesting := by
  unfold exceedNesting
  split
  · exact refl p
  · refine Grows.trans ?_ (report _ { p with nestingExceeded := true })
    exact of_eq rfl (fun _ => rfl) rfl rfl

end Grows

theorem Turns.grows {p q : Parsing} (turns : Turns p q) : Grows p q := by
  refine turns.preserve (motive := Grows p) ?_ (.refl p)
  intro a b turn grows
  refine grows.trans ?_
  cases turn with
  | advance => exact .advance a
  | refuse => exact (Grows.advance a).trans (.report _ _)
  | consume expected message => exact .consume expected message a
  | exceed => exact .exceed a
  | descend | ascend => exact .of_eq rfl id rfl rfl

end Parsing

end Arith
