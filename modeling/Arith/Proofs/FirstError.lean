import Arith.Proofs.Expectation
import Arith.Proofs.WholeText

namespace Arith

def tokensBefore (source filename : String) (place : Location) : List Token :=
  (tokenize source filename).toList.filter (·.location.offset < place.offset)

def wordBefore (source filename : String) (place : Location) : List Token :=
  (tokensBefore source filename place).filter (·.kind ≠ .invalid)

/-- The tokens of `word` begin an expression that cannot go on with `token`, nor end before it if it is the end. -/
structure Stuck (word : List Token) (token : Token) : Prop where
  viable : Viable .conditional word
  blocks : token.kind ≠ .endOfInput → ¬ Viable .conditional (word ++ [token])
  incomplete : token.kind = .endOfInput → ∀ tree, ¬ Phrase .conditional word tree

theorem Stuck.of_refused {word : List Token} {token : Token} {e : Expectation} (viable : Viable .conditional word)
    (reached : (Expectation.operand 0).afterWord? word = some e) (refused : e.after? token.kind = none)
    (ends : token.kind = .endOfInput → e ≠ .operator 0) : Stuck word token :=
  ⟨viable, fun _ => Expectation.not_viable reached refused,
    fun stop tree => Expectation.not_phrase reached (ends stop) tree⟩

theorem Stuck.of_undivided {word : List Token} {colon token : Token} (divides : colon.kind = .colon)
    (viable : Viable .conditional (word ++ [colon]))
    (other : token.kind = .number ∨ token.kind = .bang ∨ token.kind = .endOfInput) : Stuck word token := by
  obtain ⟨e, next, reached, follows⟩ := Expectation.after?_of_viable viable
  rw [divides] at follows
  obtain ⟨waiting, rfl⟩ := Expectation.operator_of_colon follows
  refine .of_refused viable.take reached ?_ (fun _ => by simp)
  rcases other with kind | kind | kind <;> rw [kind] <;> rfl

theorem Stuck.of_unbegun {word : List Token} {first token : Token} (begins : first.kind = .number)
    (viable : Viable .conditional (word ++ [first])) (foreign : token.kind.begins = false) : Stuck word token := by
  obtain ⟨e, next, reached, follows⟩ := Expectation.after?_of_viable viable
  rw [begins] at follows
  obtain ⟨waiting, rfl⟩ := Expectation.operand_of_number follows
  exact .of_refused viable.take reached (Expectation.after?_foreign foreign waiting) (fun _ => by simp)

theorem Stuck.of_trailing {word : List Token} {token : Token} {tree : Tree}
    (phrase : Phrase .conditional word tree)
    (other : token.kind = .number ∨ token.kind = .bang ∨ token.kind = .colon) : Stuck word token := by
  refine .of_refused (.of_phrase phrase) (Expectation.afterWord?_of_phrase phrase 0) ?_ ?_
  · rcases other with kind | kind | kind <;> rw [kind] <;> rfl
  · intro stop
    rcases other with kind | kind | kind <;> rw [kind] at stop <;> cases stop

theorem code?_of_lexical {error : SyntaxError} (lexical : error.cause = .lexical) {code : ErrorCode}
    (found : error.code? = some code) : code = .unexpectedCharacter := by
  rw [SyntaxError.code?, lexical] at found
  exact List.mem_singleton.mp (List.mem_of_find?_eq_some found)

namespace Misplaced

variable {word : List Token} {error : SyntaxError}

theorem viable (misplaced : Misplaced word error) (other : error.cause ≠ .lexical) : Viable .conditional word := by
  cases misplaced with
  | atStart token => exact .nil _
  | trailing message phrase other => exact .of_phrase phrase
  | inside blocked =>
    cases blocked with
    | lexical viable => exact absurd rfl other
    | undivided divides viable other => exact viable.take
    | unbegun begins viable foreign => exact viable.take
    | tooLarge viable => exact viable
    | tooDeep limit viable => exact viable

theorem viable_dropLast (misplaced : Misplaced word error) : Viable .conditional word.dropLast := by
  by_cases lexical : error.cause = .lexical
  · cases misplaced with
    | atStart token => exact .nil _
    | trailing message phrase other => cases lexical
    | inside blocked =>
      cases blocked with
      | lexical viable => rwa [List.dropLast_concat]
      | _ => cases lexical
  · obtain ⟨last, split⟩ := List.dropLast_prefix word
    have viable := misplaced.viable lexical
    rw [← split] at viable
    exact viable.take

theorem stuck (misplaced : Misplaced word error)
    (code : error.code? ∈ [some .expectedToken, some .expectedExpression, some .trailingInput]) :
    Stuck word error.token := by
  have other : error.cause ≠ .lexical := by
    intro lexical
    simp only [List.mem_cons, List.not_mem_nil, or_false] at code
    rcases code with found | found | found <;> cases code?_of_lexical lexical found
  cases misplaced with
  | atStart token => exact absurd rfl other
  | trailing message phrase follows => exact .of_trailing phrase follows
  | inside blocked =>
    cases blocked with
    | lexical viable => exact absurd rfl other
    | undivided divides viable follows => exact .of_undivided divides viable follows
    | unbegun begins viable foreign => exact .of_unbegun begins viable foreign
    | tooLarge viable => simp [SyntaxError.code?] at code
    | tooDeep limit viable => simp [SyntaxError.code?] at code

end Misplaced

theorem tokensBefore_eq {source filename : String} {word behind : List Token} {token : Token}
    (split : (tokenize source filename).toList = word ++ token :: behind) :
    tokensBefore source filename token.location = word := by
  have sorted : ((tokenize source filename).toList).Pairwise (·.location.offset < ·.location.offset) :=
    (Scanner.ofSource source filename).tokens_pairwise_offset
  rw [split] at sorted
  obtain ⟨_, later, earlier⟩ := List.pairwise_append.mp sorted
  rw [tokensBefore, split, List.filter_append]
  have none : (token :: behind).filter (·.location.offset < token.location.offset) = [] := by
    rw [List.filter_eq_nil_iff]
    intro t member
    rcases List.mem_cons.mp member with rfl | member
    · simp
    · have after := (List.pairwise_cons.mp later).1 t member
      simp only [decide_eq_true_eq]
      omega
  have all : word.filter (·.location.offset < token.location.offset) = word := by
    rw [List.filter_eq_self]
    intro t member
    exact decide_eq_true (earlier t member token List.mem_cons_self)
  rw [none, all, List.append_nil]

/-- The first error that is recorded is found at the first token that has no place. -/
theorem first_error_stuck (source filename : String) {e : SyntaxError}
    (first : (Parsing.ofSource source filename).expression.2.errors[0]? = some e) :
    (e.code? ∈ [some .expectedToken, some .expectedExpression, some .trailingInput] →
        (∀ t ∈ tokensBefore source filename e.location, t.kind ≠ .invalid) ∧
        Stuck (wordBefore source filename e.location) e.token) ∧
      (e.code? ∈ [some .numberTooLarge, some .nestedTooDeeply] →
        Viable .conditional (wordBefore source filename e.location)) ∧
      (e.code? = some .unexpectedCharacter →
        Viable .conditional (wordBefore source filename e.location).dropLast) := by
  have recorded : (Parsing.ofSource source filename).expression.2.Recorded := Parsing.recorded_expression _
  rw [recorded.first] at first
  rcases Parsing.expression_start (.ofSource source filename) with
    ⟨_, _, _, _, _, _, quiet⟩ | ⟨error, word, behind, found, split, valid, misplaced⟩
  · rw [Parsing.ofSource, quiet] at first
    cases first
  · obtain rfl := Option.some.inj (first.symm.trans found)
    have before : tokensBefore source filename e.location = word := tokensBefore_eq split
    have sound : wordBefore source filename e.location = word := by
      rw [wordBefore, before, List.filter_eq_self]
      exact fun t member => decide_eq_true (valid t member)
    rw [before, sound]
    refine ⟨fun code => ⟨valid, misplaced.stuck code⟩, fun code => misplaced.viable ?_,
      fun _ => misplaced.viable_dropLast⟩
    intro lexical
    simp only [List.mem_cons, List.not_mem_nil, or_false] at code
    rcases code with found | found <;> cases code?_of_lexical lexical found

theorem first_error_stuck_second_number :
    ∃ e, (Parsing.ofSource "1 2" "").expression.2.errors[0]? = some e ∧
      Stuck (wordBefore "1 2" "" e.location) e.token := by
  have first : (Parsing.ofSource "1 2" "").expression.2.errors[0]? =
      some ⟨.missing .endOfInput Parsing.trailingMessage, ⟨.number, "2", ⟨"", 1, 3, 2⟩⟩⟩ := by decide +kernel
  exact ⟨_, first, ((first_error_stuck "1 2" "" first).1 (by decide)).2⟩

end Arith
