import Arith.Proofs.ReadingOutcome

namespace Arith

/-- The tokens of a text without the end token. -/
def spelling (source filename : String) : List Token := (tokenize source filename).toList.dropLast

inductive Misplaced : List Token → SyntaxError → Prop where
  | inside {word : List Token} {error : SyntaxError} (blocked : Blocked .conditional word error) :
      Misplaced word error
  | atStart (token : Token) : Misplaced [] ⟨.lexical, token⟩
  | trailing {word : List Token} {tree : Tree} {token : Token} (message : String)
      (phrase : Phrase .conditional word tree)
      (other : token.kind = .number ∨ token.kind = .bang ∨ token.kind = .colon) :
      Misplaced word ⟨.missing .endOfInput message, token⟩

namespace Parsing

@[simp] theorem depth_report (error : SyntaxError) (p : Parsing) : (p.report error).depth = p.depth := by
  unfold report
  split <;> rfl

@[simp] theorem depth_reportPassed (passed : Array Token) (p : Parsing) :
    (reportPassed passed p).depth = p.depth :=
  reportPassed_induction (motive := fun q => q.depth = p.depth) passed rfl (fun q t _ h => by simp [h])

@[simp] theorem depth_start (s : Scanner) : (start s).depth = 0 := by simp [start]

@[simp] theorem nestingExceeded_start (s : Scanner) : (start s).nestingExceeded = false := by simp [start]

theorem reported_start (s : Scanner) :
    (start s).reported = s.pull.passed.toList.map (⟨.lexical, ·⟩) := by
  simp only [start, reported_reportPassed]
  rfl

theorem tokens_eq_start (s : Scanner) : s.tokens = s.pull.passed.toList ++ (start s).ahead := by
  rw [s.tokens_eq_pull]
  simp [ahead, start]

theorem kind_of_trailing {kind : Token.Kind} (closed : ¬ kind.Continues .conditional) (valid : kind ≠ .invalid)
    (other : kind ≠ .endOfInput) : kind = .number ∨ kind = .bang ∨ kind = .colon := by
  by_cases colon : kind = .colon
  · exact .inr (.inr colon)
  · rcases Token.Kind.of_not_continues closed valid colon with number | bang | stop
    · exact .inl number
    · exact .inr (.inl bang)
    · exact absurd stop other

def trailingMessage : String := "Expect end of expression"

theorem expression_eq (p : Parsing) :
    p.expression = ((p.parse .conditional).1, ((p.parse .conditional).2.consume .endOfInput trailingMessage).2) :=
  rfl

theorem recorded_expression (s : Scanner) : (start s).expression.2.Recorded := by
  rw [expression_eq]
  exact ((moves_parse .conditional (start s)).recorded (.start s)).consume

theorem Finds.consume {p q : Parsing} {error : SyntaxError} (finds : Finds p error q) (expected : Token.Kind)
    (message : String) : Finds p error (q.consume expected message).2 := by
  obtain ⟨behind, found⟩ := finds
  obtain ⟨later, same⟩ := reported_prefix_consume expected message q
  exact ⟨behind ++ later, by rw [← same, found, List.append_assoc, List.cons_append]⟩

theorem ends_consume_end {p q : Parsing} {word : List Token} {tree : Tree} (passes : Passes p word q)
    (settled : q.Settled) (phrase : Phrase .conditional word tree)
    (closed : ¬ q.current.kind.Continues .conditional) :
    (q.ahead = [q.current] ∧ (q.consume .endOfInput trailingMessage).2.reported = p.reported) ∨
      ∃ error behind, (q.consume .endOfInput trailingMessage).2.reported = p.reported ++ [error] ∧
        q.ahead = error.token :: behind ∧ Misplaced word error := by
  rcases consume_cases .endOfInput trailingMessage q with ⟨exceeded, _⟩ | ⟨_, stop, same⟩ | ⟨_, more, same⟩
  · rw [passes.running] at exceeded
    cases exceeded
  · left
    have still := advance_of_end (p := { q with panicking := false }) ⟨settled.valid, settled.still⟩ stop
    rw [same]
    exact ⟨ahead_of_end stop, still.1.trans passes.reported⟩
  · right
    obtain ⟨behind, ahead⟩ := head_ahead q
    refine ⟨⟨.missing .endOfInput trailingMessage, q.current⟩, behind, ?_, ahead, ?_⟩
    · rw [same, reported_report, passes.reported]
    · exact .trailing trailingMessage phrase (kind_of_trailing closed settled.valid more)

theorem expression_start (s : Scanner) :
    (∃ word stop, s.tokens = word ++ [stop] ∧ Phrase .conditional word (start s).expression.1 ∧ Fits word ∧
        (start s).expression.1.height ≤ maxNesting ∧ (start s).expression.2.reported = []) ∨
      ∃ error word behind, (start s).expression.2.reported.head? = some error ∧
        s.tokens = word ++ error.token :: behind ∧ (∀ t ∈ word, t.kind ≠ .invalid) ∧ Misplaced word error := by
  have split := tokens_eq_start s
  have reports := reported_start s
  rw [expression_eq]
  have ends := ends_parseWithin maxNesting .conditional (start s) (nestingExceeded_start s) (.start s)
  have moves := moves_parseWithin maxNesting .conditional (start s)
  rw [parse_of_outermost (depth_start s)]
  generalize parseWithin maxNesting .conditional (start s) = read at ends moves
  cases passed : s.pull.passed.toList with
  | cons token more =>
    right
    rw [passed] at split reports
    obtain ⟨later, grown⟩ := moves.reported_prefix.trans (reported_prefix_consume .endOfInput trailingMessage read.2)
    refine ⟨⟨.lexical, token⟩, [], _, ?_, split, by simp, .atStart token⟩
    rw [← grown, reports]
    rfl
  | nil =>
    rw [passed] at split reports
    rw [List.nil_append] at split
    rw [List.map_nil] at reports
    rw [split]
    rcases ends with ⟨passes, phrase, fits, height, closed⟩ | ⟨finds, ahead, valid, blocked⟩
    · have whole := passes.ahead
      rcases ends_consume_end passes (moves.settled (.start s)) phrase closed with
        ⟨stop, quiet⟩ | ⟨error, behind, found, ahead, misplaced⟩
      · left
        exact ⟨_, _, by rw [whole, stop], phrase, fits, height, by rw [quiet, reports]⟩
      · right
        refine ⟨error, _, behind, ?_, by rw [whole, ahead], phrase.valid, misplaced⟩
        rw [found, reports]
        rfl
    · right
      obtain ⟨later, grown⟩ := finds.consume .endOfInput trailingMessage
      refine ⟨_, _, _, ?_, ahead, valid, .inside blocked⟩
      rw [grown, reports]
      rfl

end Parsing

end Arith
