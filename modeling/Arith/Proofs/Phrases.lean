import Arith.Grammar

namespace Arith

def Token.Kind.begins : Token.Kind → Bool
  | .number | .minus | .bang => true
  | _ => false

namespace Level

@[refl] theorem le_refl (a : Level) : a ≤ a := Nat.le_refl _

theorem le_trans {a b c : Level} (first : a ≤ b) (second : b ≤ c) : a ≤ c := Nat.le_trans first second

theorem le_tighter (a : Level) : a ≤ a.tighter := by cases a <;> decide

theorem le_unary (a : Level) : a ≤ .unary := by cases a <;> decide

theorem conditional_le (a : Level) : .conditional ≤ a := Nat.zero_le _

theorem eq_conditional_of_le {a : Level} (below : a ≤ .conditional) : a = .conditional := by
  revert below
  cases a <;> decide

theorem sum_le_of_ne {a : Level} (tight : a ≠ .conditional) : .sum ≤ a := by
  revert tight
  cases a <;> decide

theorem eq_or_tighter_le {a b : Level} (below : a ≤ b) : a = b ∨ a ≠ .unary ∧ a.tighter ≤ b := by
  revert below
  cases a <;> cases b <;> decide

/-- The level at which the last operand of a phrase is read. -/
def trailing : Level → Level
  | conditional => conditional
  | level => level.tighter

theorem le_trailing (a : Level) : a ≤ a.trailing := by cases a <;> decide

theorem trailing_le_trailing_tighter (a : Level) : a.trailing ≤ a.tighter.trailing := by cases a <;> decide

theorem le_of_not_trailing_le {a b : Level} (less : ¬ a.trailing ≤ b) : b ≤ a := by
  revert less
  cases a <;> cases b <;> decide

theorem le_of_not_tighter_le {a b : Level} (less : ¬ a.tighter ≤ b) : b ≤ a := by
  revert less
  cases a <;> cases b <;> decide

theorem ne_conditional_of_not_trailing_le {a b : Level} (less : ¬ a.trailing ≤ b) : a ≠ .conditional := by
  rintro rfl
  exact less (conditional_le b)

end Level

namespace Token.Kind

/-- Whether a token of this kind goes on with an expression of the given level. -/
def Continues (kind : Kind) (level : Level) : Prop := ∃ binding, kind.binding? = some binding ∧ level ≤ binding

theorem Continues.mono {kind : Kind} {a b : Level} (below : a ≤ b) (next : kind.Continues b) :
    kind.Continues a := by
  obtain ⟨binding, binds, tight⟩ := next
  exact ⟨binding, binds, Level.le_trans below tight⟩

theorem binding?_ne_unary (kind : Kind) : kind.binding? ≠ some .unary := by cases kind <;> decide

instance (kind : Kind) (level : Level) : Decidable (kind.Continues level) :=
  decidable_of_iff (∃ binding ∈ kind.binding?, level ≤ binding) (by simp [Continues])

theorem not_continues_unary (kind : Kind) : ¬ kind.Continues .unary := by
  rintro ⟨binding, binds, tight⟩
  cases binding with
  | unary => exact binding?_ne_unary kind binds
  | _ => exact absurd tight (by decide)

theorem of_not_continues {kind : Kind} (closed : ¬ kind.Continues .conditional)
    (valid : kind ≠ .invalid) (other : kind ≠ .colon) : kind = .number ∨ kind = .bang ∨ kind = .endOfInput := by
  cases kind with
  | number => exact .inl rfl
  | bang => exact .inr (.inl rfl)
  | endOfInput => exact .inr (.inr rfl)
  | invalid => exact absurd rfl valid
  | colon => exact absurd rfl other
  | _ => exact absurd ⟨_, rfl, Level.conditional_le _⟩ closed

theorem not_continues_trailing {kind : Kind} {level : Level} (tight : level = .sum ∨ level = .product)
    (binds : kind.binding? = some level) : ¬ kind.Continues level.trailing := by
  rintro ⟨binding, same, above⟩
  rw [binds] at same
  cases same
  rcases tight with rfl | rfl <;> exact absurd above (by decide)

theorem ne_conditional_iff_of_binding {kind : Kind} {level : Level} (binds : kind.binding? = some level) :
    level ≠ .conditional ↔ level = .sum ∨ level = .product := by
  cases kind <;> cases binds <;> decide

theorem binding?_eq_sum_iff {kind : Kind} : kind.binding? = some .sum ↔ kind = .plus ∨ kind = .minus := by
  cases kind <;> decide

theorem binding?_eq_product_iff {kind : Kind} : kind.binding? = some .product ↔ kind = .times ∨ kind = .divide := by
  cases kind <;> decide

theorem binding?_eq_conditional_iff {kind : Kind} : kind.binding? = some .conditional ↔ kind = .question := by
  cases kind <;> decide

theorem ne_of_binding {kind : Kind} {level : Level} (binds : kind.binding? = some level) :
    kind ≠ .endOfInput ∧ kind ≠ .invalid ∧ kind ≠ .number := by
  refine ⟨?_, ?_, ?_⟩ <;> rintro rfl <;> cases binds

theorem ne_of_sign {kind : Kind} (sign : kind = .minus ∨ kind = .bang) :
    kind ≠ .endOfInput ∧ kind ≠ .invalid ∧ kind ≠ .number := by
  rcases sign with rfl | rfl <;> decide

end Token.Kind

theorem Tree.height_pos (t : Tree) : 0 < t.height := by
  cases t <;> simp only [height] <;> omega

namespace Phrase

theorem binary {level : Level} {operator : Token} {front back : List Token} {left right : Tree}
    (tight : level = .sum ∨ level = .product) (binds : operator.kind.binding? = some level)
    (first : Phrase level front left) (second : Phrase level.tighter back right) :
    Phrase level (front ++ operator :: back) (.binary operator left right ⟨left.span.start, right.span.stop⟩) := by
  rcases tight with rfl | rfl
  · exact .sum (Token.Kind.binding?_eq_sum_iff.mp binds) first second
  · exact .product (Token.Kind.binding?_eq_product_iff.mp binds) first second

theorem loosen {level : Level} {word : List Token} {tree : Tree} (loose : level ≠ .unary)
    (phrase : Phrase level.tighter word tree) : Phrase level word tree := by
  cases level with
  | conditional => exact .ofSum phrase
  | sum => exact .ofProduct phrase
  | product => exact .ofUnary phrase
  | unary => exact absurd rfl loose

/-- Whatever the rules over the levels keep is kept by the grammar. -/
@[elab_as_elim]
theorem levelInduction {motive : ∀ level word tree, Phrase level word tree → Prop}
    (number : ∀ {t : Token} (kind : t.kind = .number), motive _ _ _ (.number kind))
    (unary : ∀ {operator : Token} {word : List Token} {operand : Tree}
      (kind : operator.kind = .minus ∨ operator.kind = .bang) (phrase : Phrase .unary word operand),
      motive _ _ _ phrase → motive _ _ _ (.unary kind phrase))
    (binary : ∀ {level : Level} {operator : Token} {front back : List Token} {left right : Tree}
      (tight : level = .sum ∨ level = .product) (binds : operator.kind.binding? = some level)
      (first : Phrase level front left) (second : Phrase level.tighter back right),
      motive _ _ _ first → motive _ _ _ second → motive _ _ _ (.binary tight binds first second))
    (ternary : ∀ {question colon : Token} {front middle back : List Token} {condition whenTrue whenFalse : Tree}
      (asks : question.kind = .question) (divides : colon.kind = .colon) (first : Phrase .sum front condition)
      (second : Phrase .conditional middle whenTrue) (third : Phrase .conditional back whenFalse),
      motive _ _ _ first → motive _ _ _ second → motive _ _ _ third →
        motive _ _ _ (.ternary asks divides first second third))
    (loosen : ∀ {level : Level} {word : List Token} {tree : Tree} (loose : level ≠ .unary)
      (phrase : Phrase level.tighter word tree), motive _ _ _ phrase → motive _ _ _ (.loosen loose phrase))
    {level : Level} {word : List Token} {tree : Tree} (phrase : Phrase level word tree) :
    motive level word tree phrase := by
  induction phrase with
  | number kind => exact number kind
  | unary kind phrase ih => exact unary kind phrase ih
  | ofUnary phrase ih => exact loosen (show Level.product ≠ .unary by decide) phrase ih
  | product kind first second ihFirst ihSecond =>
    exact binary (.inr rfl) (Token.Kind.binding?_eq_product_iff.mpr kind) first second ihFirst ihSecond
  | ofProduct phrase ih => exact loosen (show Level.sum ≠ .unary by decide) phrase ih
  | sum kind first second ihFirst ihSecond =>
    exact binary (.inl rfl) (Token.Kind.binding?_eq_sum_iff.mpr kind) first second ihFirst ihSecond
  | ofSum phrase ih => exact loosen (show Level.conditional ≠ .unary by decide) phrase ih
  | ternary asks divides first second third ihFirst ihSecond ihThird =>
    exact ternary asks divides first second third ihFirst ihSecond ihThird

theorem weaken {a b : Level} {word : List Token} {tree : Tree} (below : a ≤ b) (phrase : Phrase b word tree) :
    Phrase a word tree := by
  rcases Level.eq_or_tighter_le below with rfl | ⟨loose, below⟩
  · exact phrase
  · exact .loosen loose (weaken below phrase)
termination_by b.toNat - a.toNat
decreasing_by
  clear phrase
  revert loose below
  cases a <;> cases b <;> decide

theorem begins {level : Level} {word : List Token} {tree : Tree} (phrase : Phrase level word tree) :
    ∃ first behind, word = first :: behind ∧ first.kind.begins = true := by
  induction phrase using levelInduction with
  | number kind => exact ⟨_, [], rfl, by rw [kind]; rfl⟩
  | unary kind _ _ => exact ⟨_, _, rfl, by rcases kind with kind | kind <;> rw [kind] <;> rfl⟩
  | binary _ _ _ _ ih _ | ternary _ _ _ _ _ ih _ _ =>
    obtain ⟨first, behind, split, begins⟩ := ih
    exact ⟨first, _, by rw [split, List.cons_append], begins⟩
  | loosen _ _ ih => exact ih

theorem kinds {level : Level} {word : List Token} {tree : Tree} (phrase : Phrase level word tree) :
    ∀ t ∈ word, t.kind ≠ .invalid ∧ t.kind ≠ .endOfInput := by
  induction phrase using levelInduction with
  | number kind =>
    intro t member
    rw [List.mem_singleton.mp member, kind]
    decide
  | unary kind _ ih =>
    intro t member
    rcases List.mem_cons.mp member with rfl | member
    · exact ⟨(Token.Kind.ne_of_sign kind).2.1, (Token.Kind.ne_of_sign kind).1⟩
    · exact ih t member
  | @binary _ operator _ _ _ _ _ binds _ _ first second =>
    have other := Token.Kind.ne_of_binding binds
    intro t member
    rcases List.mem_append.mp member with member | member
    · exact first t member
    · rcases List.mem_cons.mp member with rfl | member
      · exact ⟨other.2.1, other.1⟩
      · exact second t member
  | ternary asks divides _ _ _ first second third =>
    intro t member
    simp only [List.mem_append, List.mem_cons] at member
    rcases member with member | rfl | member | rfl | member
    · exact first t member
    · rw [asks]
      decide
    · exact second t member
    · rw [divides]
      decide
    · exact third t member
  | loosen _ _ ih => exact ih

theorem valid {level : Level} {word : List Token} {tree : Tree} (phrase : Phrase level word tree) :
    ∀ t ∈ word, t.kind ≠ .invalid := fun t member => (phrase.kinds t member).1

end Phrase

/-- Some tokens behind `word` would make it a phrase of the level. -/
def Viable (level : Level) (word : List Token) : Prop := ∃ behind tree, Phrase level (word ++ behind) tree

namespace Viable

variable {level : Level} {word : List Token}

theorem of_phrase {tree : Tree} (phrase : Phrase level word tree) : Viable level word :=
  ⟨[], tree, by rwa [List.append_nil]⟩

theorem weaken {a b : Level} (below : a ≤ b) (viable : Viable b word) : Viable a word := by
  obtain ⟨behind, tree, phrase⟩ := viable
  exact ⟨behind, tree, phrase.weaken below⟩

theorem take {front back : List Token} (viable : Viable level (front ++ back)) : Viable level front := by
  obtain ⟨behind, tree, phrase⟩ := viable
  exact ⟨back ++ behind, tree, by rwa [← List.append_assoc]⟩

def sample (kind : Token.Kind) : Token := ⟨kind, "", ⟨"", 0, 0, 0⟩⟩

theorem kind_sample (kind : Token.Kind) : (sample kind).kind = kind := rfl

def sampleTree : Tree := .number (sample .number).value (.point (sample .number).location)

theorem sample_number (level : Level) : Phrase level [sample .number] sampleTree :=
  Phrase.weaken (Level.le_unary level) (.number rfl)

theorem nil (level : Level) : Viable level [] := ⟨_, _, sample_number level⟩

theorem unary {operator : Token} (kind : operator.kind = .minus ∨ operator.kind = .bang)
    (viable : Viable .unary word) : Viable .unary (operator :: word) := by
  obtain ⟨behind, tree, phrase⟩ := viable
  exact ⟨behind, _, .unary kind phrase⟩

theorem binary {operator : Token} {front : List Token} {left : Tree}
    (tight : level = .sum ∨ level = .product) (binds : operator.kind.binding? = some level)
    (first : Phrase level front left) (viable : Viable level.tighter word) :
    Viable level (front ++ operator :: word) := by
  obtain ⟨behind, tree, phrase⟩ := viable
  have whole := Phrase.binary tight binds first phrase
  rw [← List.cons_append, ← List.append_assoc] at whole
  exact ⟨behind, _, whole⟩

theorem whenTrue {question : Token} {front : List Token} {condition : Tree}
    (asks : question.kind = .question) (first : Phrase .sum front condition)
    (viable : Viable .conditional word) : Viable .conditional (front ++ question :: word) := by
  obtain ⟨behind, tree, phrase⟩ := viable
  have whole := Phrase.ternary asks (kind_sample .colon) first phrase (sample_number .conditional)
  exact ⟨behind ++ [sample .colon, sample .number], _, by
    simpa only [List.append_assoc, List.cons_append] using whole⟩

theorem whenFalse {question colon : Token} {front middle : List Token} {condition whenTrue : Tree}
    (asks : question.kind = .question) (divides : colon.kind = .colon) (first : Phrase .sum front condition)
    (second : Phrase .conditional middle whenTrue) (viable : Viable .conditional word) :
    Viable .conditional (front ++ question :: (middle ++ colon :: word)) := by
  obtain ⟨behind, tree, phrase⟩ := viable
  have whole := Phrase.ternary asks divides first second phrase
  exact ⟨behind, _, by simpa only [List.append_assoc, List.cons_append] using whole⟩

end Viable

end Arith
