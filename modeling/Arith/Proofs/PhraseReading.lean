import Arith.Proofs.ReadingOutcome

namespace Arith

namespace Parsing

/-- From wherever the phrase stands ahead, the loop is reached with its tree and right behind it. -/
def IsRead (level : Level) (word : List Token) (tree : Tree) : Prop :=
  ∀ {room : Nat} {loose : Level} {p : Parsing} {next : Token} {rest : List Token}, loose ≤ level →
    p.nestingExceeded = false → p.ahead = word ++ next :: rest → Fits word → next.kind ≠ .invalid →
    tree.height ≤ room + 1 → ¬ next.kind.Continues level.trailing →
    ∃ q, Passes p word q ∧
      readExpression (parseWithin room) room loose p = extend (parseWithin room) room loose tree q

theorem Passes.ahead_eq {p q : Parsing} {word behind : List Token} (passes : Passes p word q)
    (ahead : p.ahead = word ++ behind) : q.ahead = behind :=
  List.append_cancel_left (passes.ahead.symm.trans ahead)

theorem current_of_ahead {p : Parsing} {next : Token} {rest : List Token} (ahead : p.ahead = next :: rest) :
    p.current = next := (List.cons.inj ahead).1

theorem readExpression_of_first {operand : Reader} {room : Nat} {level : Level} {tree : Tree} {p q : Parsing}
    (first : readFirst operand p = (some tree, q)) :
    readExpression operand room level p = extend operand room level tree q := by
  rw [readExpression, first]

theorem IsRead.parseWithin {level : Level} {word : List Token} {tree : Tree} (read : IsRead level word tree)
    {room : Nat} {p : Parsing} {next : Token} {rest : List Token} (running : p.nestingExceeded = false)
    (ahead : p.ahead = word ++ next :: rest) (fits : Fits word) (valid : next.kind ≠ .invalid)
    (height : tree.height ≤ room) (closed : ¬ next.kind.Continues level) :
    ∃ q, Passes p word q ∧ parseWithin room level p = (tree, q) := by
  obtain ⟨room, rfl⟩ : ∃ r, room = r + 1 := ⟨room - 1, by have := tree.height_pos; omega⟩
  obtain ⟨q, passes, same⟩ := read (p := p.descend) (Level.le_refl level) running ahead fits valid height
    fun continues => closed (continues.mono (Level.le_trailing level))
  have here := current_of_ahead (passes.ahead_eq ahead)
  have stops : q.continuation? level = none := by
    rw [continuation?_eq_none_iff passes.running, here]
    exact closed
  refine ⟨q.ascend, ⟨passes.ahead, passes.reported, passes.running⟩, ?_⟩
  rw [parseWithin_succ running, same, extend_of_stop _ _ _ stops]

theorem passes_next {p : Parsing} {token first : Token} {behind : List Token} (running : p.nestingExceeded = false)
    (ahead : p.ahead = token :: first :: behind) (live : token.kind ≠ .endOfInput) (valid : first.kind ≠ .invalid) :
    Passes p [token] p.advance ∧ p.advance.ahead = first :: behind := by
  have here := current_of_ahead ahead
  subst here
  refine advance_passes running live ahead fun t found => ?_
  cases found
  exact valid

theorem passes_next_phrase {level : Level} {word behind : List Token} {tree : Tree} {p : Parsing} {token : Token}
    (phrase : Phrase level word tree) (running : p.nestingExceeded = false)
    (ahead : p.ahead = token :: (word ++ behind)) (live : token.kind ≠ .endOfInput) :
    Passes p [token] p.advance ∧ p.advance.ahead = word ++ behind := by
  obtain ⟨first, more, split, _⟩ := phrase.begins
  have valid := phrase.valid first (by rw [split]; exact List.mem_cons_self)
  rw [split, List.cons_append] at ahead ⊢
  exact passes_next running ahead live valid

theorem isRead_number {t : Token} (kind : t.kind = .number) :
    IsRead .unary [t] (.number t.value (.point t.location)) := by
  rw [← t.literal_eq]
  intro room loose p next rest _ running ahead fits valid _ _
  obtain ⟨passes, _⟩ := passes_next running ahead (by rw [kind]; decide) valid
  have here := current_of_ahead ahead
  have short := fits t List.mem_cons_self kind
  subst here
  exact ⟨_, passes, readExpression_of_first (readFirst_of_number _ kind short)⟩

theorem isRead_unary {operator : Token} {tokens : List Token} {operand : Tree}
    (kind : operator.kind = .minus ∨ operator.kind = .bang) (phrase : Phrase .unary tokens operand)
    (read : IsRead .unary tokens operand) : IsRead .unary (operator :: tokens) (.apply operator operand) := by
  intro room loose p next rest _ running ahead fits valid height _
  have here := current_of_ahead ahead
  subst here
  obtain ⟨passes, behind⟩ := passes_next_phrase phrase running ahead (Token.Kind.ne_of_sign kind).1
  obtain ⟨q, passed, same⟩ := read.parseWithin passes.running behind
    fits.tail valid (Nat.le_of_succ_le_succ height)
    (Token.Kind.not_continues_unary _)
  refine ⟨q, passes.trans passed, readExpression_of_first ?_⟩
  rw [readFirst_of_sign _ kind, same]

theorem isRead_binary {level : Level} {operator : Token} {front back : List Token} {left right : Tree}
    (tight : level = .sum ∨ level = .product) (binds : operator.kind.binding? = some level)
    (second : Phrase level.tighter back right) (readLeft : IsRead level front left)
    (readRight : IsRead level.tighter back right) :
    IsRead level (front ++ operator :: back) (.combine operator left right) := by
  intro room loose p next rest below running ahead fits valid height closed
  have ne : level ≠ .conditional := (Token.Kind.ne_conditional_iff_of_binding binds).mpr tight
  obtain ⟨live, operatorValid, _⟩ := Token.Kind.ne_of_binding binds
  have closed : ¬ next.kind.Continues level.tighter := by rcases tight with rfl | rfl <;> exact closed
  obtain ⟨leftHeight, rightHeight⟩ := Nat.max_le.mp (Nat.le_of_succ_le_succ height)
  rw [List.append_assoc, List.cons_append] at ahead
  obtain ⟨q, passes, same⟩ := readLeft below running ahead fits.left operatorValid (Nat.le_succ_of_le leftHeight)
    (Token.Kind.not_continues_trailing tight binds)
  have behind := passes.ahead_eq ahead
  have here := current_of_ahead behind
  subst here
  have more : q.continuation? loose = some level :=
    (continuation?_eq_some_iff loose level q).mpr ⟨passes.running, binds, below⟩
  obtain ⟨passed, further⟩ := passes_next_phrase second passes.running behind live
  obtain ⟨r, last, sameRight⟩ :=
    readRight.parseWithin passed.running further fits.right.tail valid rightHeight closed
  refine ⟨r, passes.trans (passed.trans last), ?_⟩
  rw [same, extend_of_shallow _ more leftHeight, join_of_ne _ _ _ ne, sameRight]

theorem isRead_ternary {question colon : Token} {front middle back : List Token}
    {condition whenTrue whenFalse : Tree} (asks : question.kind = .question) (divides : colon.kind = .colon)
    (second : Phrase .conditional middle whenTrue) (third : Phrase .conditional back whenFalse)
    (readCondition : IsRead .sum front condition) (readTrue : IsRead .conditional middle whenTrue)
    (readFalse : IsRead .conditional back whenFalse) :
    IsRead .conditional (front ++ question :: (middle ++ colon :: back))
      (.choose condition whenTrue whenFalse) := by
  intro room loose p next rest below running ahead fits valid height closed
  have live : question.kind ≠ .endOfInput := by rw [asks]; decide
  have colonLive : colon.kind ≠ .endOfInput := by rw [divides]; decide
  obtain ⟨heights, falseHeight⟩ := Nat.max_le.mp (Nat.le_of_succ_le_succ height)
  obtain ⟨conditionHeight, trueHeight⟩ := Nat.max_le.mp heights
  have branches := fits.right.tail
  rw [List.append_assoc, List.cons_append, List.append_assoc, List.cons_append] at ahead
  have loosest : loose = .conditional := Level.eq_conditional_of_le below
  subst loosest
  obtain ⟨q, passes, same⟩ := readCondition (Level.conditional_le _) running ahead fits.left
    (by rw [asks]; decide) (Nat.le_succ_of_le conditionHeight) (by rw [asks]; decide)
  have behind := passes.ahead_eq ahead
  have here := current_of_ahead behind
  subst here
  have more : q.continuation? .conditional = some .conditional :=
    (continuation?_eq_some_iff _ _ q).mpr ⟨passes.running, by rw [asks]; rfl, Level.le_refl _⟩
  obtain ⟨passed, further⟩ := passes_next_phrase second passes.running behind live
  obtain ⟨r, last, sameTrue⟩ := readTrue.parseWithin passed.running further branches.left
    (by rw [divides]; decide) trueHeight (by rw [divides]; decide)
  have dividerAhead := last.ahead_eq further
  have divider := current_of_ahead dividerAhead
  subst divider
  have calm : Passes r [] { r with panicking := false } := ⟨rfl, rfl, last.running⟩
  obtain ⟨crossed, final⟩ := passes_next_phrase (p := { r with panicking := false }) third last.running
    dividerAhead colonLive
  have consumed := consume_of_found last.running divides dividerMessage
  obtain ⟨s, tail, sameFalse⟩ :=
    readFalse.parseWithin crossed.running final branches.right.tail valid falseHeight closed
  refine ⟨s, passes.trans (passed.trans (last.trans (calm.trans (crossed.trans tail)))), ?_⟩
  rw [same, extend_of_shallow _ more conditionHeight, join_conditional, sameTrue]
  dsimp only
  rw [consumed, sameFalse]

theorem isRead_of_phrase {level : Level} {word : List Token} {tree : Tree} (phrase : Phrase level word tree) :
    IsRead level word tree := by
  -- the level at which the word is read may be looser than that of the phrase, hence `loosen` is no loss
  induction phrase using Phrase.levelInduction with
  | number kind => exact isRead_number kind
  | unary kind phrase ih => exact isRead_unary kind phrase ih
  | binary tight binds _ second ihLeft ihRight => exact isRead_binary tight binds second ihLeft ihRight
  | ternary asks divides _ second third ihFirst ihSecond ihThird =>
    exact isRead_ternary asks divides second third ihFirst ihSecond ihThird
  | @loosen level tokens tree loose phrase ih =>
    intro room outer p next rest below running ahead fits valid height closed
    exact ih (Level.le_trans below (Level.le_tighter level)) running ahead fits valid height
      fun continues => closed (continues.mono (Level.trailing_le_trailing_tighter level))

/-- A phrase that stands ahead, with room for its tree, is read in full. -/
theorem parseWithin_of_phrase {level : Level} {word : List Token} {tree : Tree}
    (phrase : Phrase level word tree) {room : Nat} {p : Parsing} {next : Token} {rest : List Token}
    (running : p.nestingExceeded = false) (ahead : p.ahead = word ++ next :: rest) (fits : Fits word)
    (valid : next.kind ≠ .invalid) (height : tree.height ≤ room) (closed : ¬ next.kind.Continues level) :
    ∃ q, Passes p word q ∧ parseWithin room level p = (tree, q) :=
  IsRead.parseWithin (isRead_of_phrase phrase) running ahead fits valid height closed

theorem tree_unique {level : Level} {word : List Token} {one other : Tree} {p : Parsing} {next : Token}
    {rest : List Token} (running : p.nestingExceeded = false) (ahead : p.ahead = word ++ next :: rest)
    (fits : Fits word) (valid : next.kind ≠ .invalid) (closed : ¬ next.kind.Continues level)
    (first : Phrase level word one) (second : Phrase level word other) : one = other := by
  obtain ⟨q, _, readOne⟩ :=
    parseWithin_of_phrase first running ahead fits valid (Nat.le_max_left one.height other.height) closed
  obtain ⟨r, _, readOther⟩ :=
    parseWithin_of_phrase second running ahead fits valid (Nat.le_max_right one.height other.height) closed
  exact congrArg Prod.fst (readOne.symm.trans readOther)

end Parsing

end Arith
