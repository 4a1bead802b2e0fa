import Arith.Proofs.Phrases

namespace Arith

/-- What is due behind some tokens, while `waiting` conditions wait for their colon. -/
inductive Expectation where
  | operand (waiting : Nat)
  | operator (waiting : Nat)
  deriving DecidableEq, Repr

namespace Expectation

def after? : Expectation → Token.Kind → Option Expectation
  | operand waiting, .number => some (operator waiting)
  | operand waiting, .minus | operand waiting, .bang => some (operand waiting)
  | operator waiting, .plus | operator waiting, .minus => some (operand waiting)
  | operator waiting, .times | operator waiting, .divide => some (operand waiting)
  | operator waiting, .question => some (operand (waiting + 1))
  | operator (waiting + 1), .colon => some (operand waiting)
  | _, _ => none

def afterWord? (e : Expectation) (word : List Token) : Option Expectation :=
  word.foldlM (fun e token => e.after? token.kind) e

theorem afterWord?_append (e : Expectation) (front back : List Token) :
    e.afterWord? (front ++ back) = (e.afterWord? front).bind (·.afterWord? back) := List.foldlM_append

theorem afterWord?_cons (e : Expectation) (token : Token) (word : List Token) :
    e.afterWord? (token :: word) = (e.after? token.kind).bind (·.afterWord? word) := List.foldlM_cons

theorem afterWord?_singleton (e : Expectation) (token : Token) : e.afterWord? [token] = e.after? token.kind := by
  rw [afterWord?_cons]
  exact Option.bind_fun_some _

theorem after?_sign {kind : Token.Kind} (sign : kind = .minus ∨ kind = .bang) (waiting : Nat) :
    (operand waiting).after? kind = some (operand waiting) := by
  rcases sign with rfl | rfl <;> rfl

theorem after?_binding {kind : Token.Kind} {level : Level} (tight : level = .sum ∨ level = .product)
    (binds : kind.binding? = some level) (waiting : Nat) :
    (operator waiting).after? kind = some (operand waiting) := by
  rcases tight with rfl | rfl <;> cases kind <;> cases binds <;> rfl

/-- A phrase supplies the operand that is due, and closes every condition that it opens. -/
theorem afterWord?_of_phrase {level : Level} {word : List Token} {tree : Tree} (phrase : Phrase level word tree)
    (waiting : Nat) : (operand waiting).afterWord? word = some (operator waiting) := by
  induction phrase using Phrase.levelInduction generalizing waiting with
  | number kind =>
    rw [afterWord?_singleton, kind]
    rfl
  | unary kind _ ih =>
    rw [afterWord?_cons, after?_sign kind]
    exact ih waiting
  | binary tight binds _ _ first second =>
    rw [afterWord?_append, first waiting, Option.bind_some, afterWord?_cons, after?_binding tight binds]
    exact second waiting
  | ternary asks divides _ _ _ first second third =>
    rw [afterWord?_append, first waiting, Option.bind_some, afterWord?_cons, asks]
    change (operand (waiting + 1)).afterWord? _ = _
    rw [afterWord?_append, second (waiting + 1), Option.bind_some, afterWord?_cons, divides]
    exact third waiting
  | loosen _ _ ih => exact ih waiting

theorem afterWord?_of_viable {level : Level} {word : List Token} (viable : Viable level word) :
    ∃ e, (operand 0).afterWord? word = some e := by
  obtain ⟨behind, tree, phrase⟩ := viable
  have whole := afterWord?_of_phrase phrase 0
  rw [afterWord?_append] at whole
  obtain ⟨e, reached, _⟩ := Option.bind_eq_some_iff.mp whole
  exact ⟨e, reached⟩

theorem after?_of_viable {level : Level} {word : List Token} {token : Token}
    (viable : Viable level (word ++ [token])) :
    ∃ e next, (operand 0).afterWord? word = some e ∧ e.after? token.kind = some next := by
  obtain ⟨next, reached⟩ := afterWord?_of_viable viable
  rw [afterWord?_append] at reached
  obtain ⟨e, before, follows⟩ := Option.bind_eq_some_iff.mp reached
  rw [afterWord?_singleton] at follows
  exact ⟨e, next, before, follows⟩

theorem operand_of_number {e next : Expectation} (follows : e.after? .number = some next) :
    ∃ waiting, e = operand waiting := by
  cases e with
  | operand waiting => exact ⟨waiting, rfl⟩
  | operator waiting => cases follows

theorem operator_of_colon {e next : Expectation} (follows : e.after? .colon = some next) :
    ∃ waiting, e = operator (waiting + 1) := by
  cases e with
  | operand waiting => cases follows
  | operator waiting =>
    cases waiting with
    | zero => cases follows
    | succ waiting => exact ⟨waiting, rfl⟩

theorem after?_foreign {kind : Token.Kind} (foreign : kind.begins = false) (waiting : Nat) :
    (operand waiting).after? kind = none := by
  cases kind with
  | number | minus | bang => cases foreign
  | _ => rfl

theorem not_viable {level : Level} {word : List Token} {token : Token} {e : Expectation}
    (reached : (operand 0).afterWord? word = some e) (refused : e.after? token.kind = none) :
    ¬ Viable level (word ++ [token]) := by
  intro viable
  obtain ⟨_, next, same, follows⟩ := after?_of_viable viable
  rw [reached] at same
  cases same
  rw [refused] at follows
  cases follows

theorem not_phrase {level : Level} {word : List Token} {e : Expectation}
    (reached : (operand 0).afterWord? word = some e) (due : e ≠ operator 0) (tree : Tree) :
    ¬ Phrase level word tree := by
  intro phrase
  rw [afterWord?_of_phrase phrase 0] at reached
  cases reached
  exact due rfl

theorem continues_of_after? {kind : Token.Kind} {next : Expectation}
    (follows : (operator 0).after? kind = some next) : kind.Continues .conditional := by
  cases kind with
  | plus | minus | times | divide | question => exact ⟨_, rfl, Level.conditional_le _⟩
  | _ => cases follows

/-- Where an operator is due in a phrase and no condition is waiting, it is an operator of the phrase's level. -/
theorem continues_of_due {level : Level} {word front back : List Token} {next : Token} {tree : Tree}
    (phrase : Phrase level word tree) (split : word = front ++ next :: back)
    (due : (operand 0).afterWord? front = some (operator 0)) : next.kind.Continues level := by
  induction phrase using Phrase.levelInduction generalizing front back with
  | number kind =>
    rcases List.append_eq_singleton_iff.mp split.symm with ⟨rfl, _⟩ | ⟨_, none⟩
    · cases due
    · cases none
  | unary kind _ ih =>
    rcases List.cons_eq_append_iff.mp split with ⟨rfl, _⟩ | ⟨front, rfl, rest⟩
    · cases due
    · rw [afterWord?_cons, after?_sign kind] at due
      exact ih rest due
  | @binary level operator left right _ _ tight binds first _ ihFirst ihSecond =>
    have here : operator.kind.Continues level := ⟨level, binds, Level.le_refl level⟩
    rcases List.append_eq_append_iff.mp split with ⟨more, rfl, behind⟩ | ⟨more, rfl, behind⟩
    · rcases List.cons_eq_append_iff.mp behind with ⟨_, same⟩ | ⟨more, rfl, rest⟩
      · cases same
        exact here
      · rw [afterWord?_append, afterWord?_of_phrase first 0, Option.bind_some, afterWord?_cons,
          after?_binding tight binds] at due
        exact (ihSecond rest due).mono (Level.le_tighter level)
    · rcases List.cons_eq_append_iff.mp behind with ⟨_, same⟩ | ⟨more, rfl, _⟩
      · cases same
        exact here
      · exact ihFirst rfl due
  | ternary asks divides first second third =>
    have whole := afterWord?_of_phrase (.ternary asks divides first second third) 0
    rw [split, afterWord?_append, due, Option.bind_some, afterWord?_cons] at whole
    obtain ⟨_, follows, _⟩ := Option.bind_eq_some_iff.mp whole
    exact continues_of_after? follows
  | @loosen level _ _ _ _ ih => exact (ih split due).mono (Level.le_tighter level)

theorem continues_of_longer {level : Level} {word behind : List Token} {next : Token} {tree longer : Tree}
    (phrase : Phrase level word tree) (more : Phrase level (word ++ next :: behind) longer) :
    next.kind.Continues level := continues_of_due more rfl (afterWord?_of_phrase phrase 0)

end Expectation

end Arith
