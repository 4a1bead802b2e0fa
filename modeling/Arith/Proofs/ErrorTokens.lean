import Arith.Proofs.ParserInvariants
import Arith.Proofs.ReadingCourse

namespace Arith

/-- What is wrong with a token that has an error of this code. -/
def ErrorCode.Blames (p : Parser) (token : Token) : ErrorCode → Prop
  | unexpectedCharacter => token.kind = .invalid
  | expectedToken => token.kind ∈ [.number, .bang, .endOfInput]
  | expectedExpression => token.kind ∈ [.plus, .times, .divide, .question, .colon, .endOfInput]
  | trailingInput => token.kind ∈ [.number, .bang, .colon]
  | numberTooLarge => token.kind = .number ∧ maxDigits < token.lexeme.length
  | nestedTooDeeply => p.nestingExceeded = true ∧ token = p.current

theorem ErrorCode.Blames.keep {p q : Parser} {token : Token} {code : ErrorCode} (blames : code.Blames p token)
    (still : Parsing.HoldsStill p q) : code.Blames q token := by
  cases code with
  | nestedTooDeeply =>
    have kept := still blames.1
    exact ⟨kept.1, blames.2.trans kept.2.symm⟩
  | _ => exact blames

/-- The error has a code, and its token is wrong in that way. -/
def SyntaxError.Justified (p : Parser) (e : SyntaxError) : Prop :=
  ∃ code, e.code? = some code ∧ code.Blames p e.token

namespace SyntaxError

variable {p : Parser} {token : Token}

theorem justified_lexical (invalid : token.kind = .invalid) (message : token.lexeme = unexpectedCharacter) :
    Justified p ⟨.lexical, token⟩ :=
  ⟨.unexpectedCharacter, code?_lexical message, invalid⟩

theorem justified_refused {cause : Cause} (refused : Parsing.Refused token cause) (valid : token.kind ≠ .invalid) :
    Justified p ⟨cause, token⟩ := by
  cases refused with
  | expectedExpression foreign =>
    have blames : token.kind ∈ [.plus, .times, .divide, .question, .colon, .endOfInput] := by
      revert foreign valid
      cases token.kind <;> decide
    exact ⟨.expectedExpression, rfl, blames⟩
  | numberTooLarge kind long => exact ⟨.numberTooLarge, rfl, kind, long⟩

theorem justified_undivided {message : String} (closed : ¬ token.kind.Continues .conditional)
    (valid : token.kind ≠ .invalid) (other : token.kind ≠ .colon) : Justified p ⟨.missing .colon message, token⟩ := by
  have blames : token.kind ∈ [.number, .bang, .endOfInput] := by
    rcases Token.Kind.of_not_continues closed valid other with kind | kind | kind <;> rw [kind] <;> decide
  exact ⟨.expectedToken, rfl, blames⟩

theorem justified_trailing {message : String} (closed : ¬ token.kind.Continues .conditional)
    (valid : token.kind ≠ .invalid) (more : token.kind ≠ .endOfInput) :
    Justified p ⟨.missing .endOfInput message, token⟩ := by
  have blames : token.kind ∈ [.number, .bang, .colon] := by
    rcases Parsing.kind_of_trailing closed valid more with kind | kind | kind <;> rw [kind] <;> decide
  exact ⟨.trailingInput, rfl, blames⟩

end SyntaxError

namespace Parsing

def Faithful (p : Parsing) : Prop := ∀ e ∈ p.errors, e.Justified p.toParser

namespace Faithful

variable {p : Parsing}

theorem keep {q : Parsing} (faithful : Faithful p) (errors : q.errors = p.errors)
    (still : HoldsStill p.toParser q.toParser) : Faithful q := by
  intro e member
  rw [errors] at member
  obtain ⟨code, named, blames⟩ := faithful e member
  exact ⟨code, named, blames.keep still⟩

theorem keep_of_running {q : Parsing} (faithful : Faithful p) (errors : q.errors = p.errors)
    (running : p.nestingExceeded = false) : Faithful q :=
  faithful.keep errors (holdsStill_of_running running)

theorem report {error : SyntaxError} (faithful : Faithful p)
    (justified : p.panicking = false → error.Justified p.toParser) : Faithful (p.report error) := by
  cases panics : p.panicking with
  | true => exact faithful.keep (report_of_panicking panics error).1 (holdsStill_report error p)
  | false =>
    intro e member
    have here : e.Justified p.toParser := by
      rw [(report_of_calm panics error).1, Array.mem_push] at member
      rcases member with member | rfl
      · exact faithful e member
      · exact justified panics
    obtain ⟨code, named, blames⟩ := here
    exact ⟨code, named, blames.keep (holdsStill_report error p)⟩

theorem reportPassed (faithful : Faithful p) (s : Scanner) : Faithful (reportPassed s.pull.passed p) := by
  apply reportPassed_induction (motive := Faithful) s.pull.passed faithful
  intro q token member kept
  have invalid := s.kind_passed_pull token member
  have message := s.message_passed_pull token member
  exact kept.report (fun _ => SyntaxError.justified_lexical invalid message)

theorem start (s : Scanner) : Faithful (start s) := by
  apply Faithful.reportPassed
  intro e member
  cases Array.not_mem_empty e member

theorem advance (faithful : Faithful p) (running : p.nestingExceeded = false) : Faithful p.advance := by
  apply Faithful.reportPassed
  exact faithful.keep_of_running rfl running

theorem refuse {cause : SyntaxError.Cause} (faithful : Faithful p) (settled : p.Settled)
    (running : p.nestingExceeded = false) (refused : Refused p.current cause) :
    Faithful (p.advance.report ⟨cause, p.current⟩) := by
  have moved := faithful.advance running
  exact moved.report (fun _ => SyntaxError.justified_refused refused settled.valid)

theorem exceed (faithful : Faithful p) : Faithful p.exceedNesting := by
  cases running : p.nestingExceeded with
  | true =>
    rwa [exceedNesting_of_exceeded running]
  | false =>
    have flagged : Faithful { p with nestingExceeded := true } := faithful.keep_of_running rfl running
    rw [exceedNesting_of_running running]
    exact flagged.report (fun _ => ⟨.nestedTooDeeply, rfl, rfl, rfl⟩)

theorem consume {expected : Token.Kind} {message : String} (faithful : Faithful p)
    (justified : p.nestingExceeded = false → p.panicking = false → p.current.kind ≠ expected →
      SyntaxError.Justified p.toParser ⟨.missing expected message, p.current⟩) :
    Faithful (p.consume expected message).2 := by
  rcases consume_cases expected message p with ⟨_, same⟩ | ⟨running, _, same⟩ | ⟨running, missing, same⟩ <;> rw [same]
  · exact faithful
  · have calm : Faithful { p with panicking := false } := faithful.keep_of_running rfl running
    exact calm.advance running
  · exact faithful.report (fun calm => justified running calm missing)

end Faithful

namespace Course

variable {stage : Stage} {level : Level} {p q : Parsing} {tree : Tree}

theorem closed (course : Course stage level p tree q) (running : q.nestingExceeded = false)
    (calm : q.panicking = false) : ¬ q.current.kind.Continues level := by
  rcases course.ends with exceeded | closed | ⟨panics, _⟩
  · exact absurd exceeded (ne_true_of_eq_false running)
  · exact closed
  · exact absurd panics (ne_true_of_eq_false calm)

theorem faithful_divide (course : Course stage .conditional p tree q) (settled : q.Settled) (faithful : Faithful q) :
    Faithful (q.consume .colon dividerMessage).2 := by
  apply faithful.consume
  intro running calm other
  exact SyntaxError.justified_undivided (course.closed running calm) settled.valid other

theorem faithful (course : Course stage level p tree q) (settled : p.Settled) (faithful : Faithful p) :
    Faithful q := by
  -- an error is recorded where an operand is refused or the limit is met, and behind the first branch of a conditional
  induction course with
  | stopped | stop => exact faithful
  | full | deep => exact faithful.exceed
  | @enter level p q tree running inner ih =>
    have inside : Faithful p.descend := faithful.keep_of_running rfl running
    have read : Faithful q := ih ⟨settled.valid, settled.still⟩ inside
    exact read.keep rfl (Move.ascend q).moves.holdsStill
  | foreign running foreign => exact faithful.refuse settled running (.expectedExpression foreign)
  | number running _ _ _ ih => exact ih (.advance _) (faithful.advance running)
  | tooLarge running kind long _ ih =>
    exact ih (Settled.advance _).report (faithful.refuse settled running (.numberTooLarge kind long))
  | sign running _ inner _ first rest =>
    have read := first (.advance _) (faithful.advance running)
    exact rest (inner.moves.settled (.advance _)) read
  | binary next _ inner _ first rest =>
    have read := first (.advance _) (faithful.advance (running_of_continuation next))
    exact rest (inner.moves.settled (.advance _)) read
  | ternary next second third _ first middle rest =>
    have read := first (.advance _) (faithful.advance (running_of_continuation next))
    have settled := second.moves.settled (.advance _)
    have divided := middle settled.consume (second.faithful_divide settled read)
    exact rest (third.moves.settled settled.consume) divided

end Course

end Parsing

/-- Every error that is recorded names a token that is wrong in the way its code says. -/
theorem errors_blame (source filename : String) :
    let p := (Parsing.ofSource source filename).expression.2
    ∀ e ∈ p.errors, ∃ code : ErrorCode, e.diagnostic.code = some code.label ∧ code.Blames p.toParser e.token := by
  intro p e member
  have course := Parsing.course_parse .conditional (.ofSource source filename)
  have start : (Parsing.ofSource source filename).Settled := .start _
  have settled := course.moves.settled start
  have read := course.faithful start (.start _)
  have faithful : Parsing.Faithful p := by
    apply read.consume
    intro running calm more
    exact SyntaxError.justified_trailing (course.closed running calm) settled.valid more
  obtain ⟨code, named, blames⟩ := faithful e member
  have shown : e.diagnostic.code = some code.label := by rw [SyntaxError.diagnostic, named, Option.map_some]
  exact ⟨code, shown, blames⟩

theorem errors_blame_second_error :
    let p := (Parsing.ofSource "1 ? $2 : 3 4" "").expression.2
    ∃ e ∈ p.errors, e.token.lexeme = "4" ∧
      ∃ code : ErrorCode, e.diagnostic.code = some code.label ∧ code.Blames p.toParser e.token := by
  intro p
  have second : p.errors[1]? =
      some ⟨.missing .endOfInput Parsing.trailingMessage, ⟨.number, "4", ⟨"", 1, 12, 11⟩⟩⟩ := by decide +kernel
  have member := Array.mem_of_getElem? second
  exact ⟨_, member, rfl, errors_blame "1 ? $2 : 3 4" "" _ member⟩

end Arith
