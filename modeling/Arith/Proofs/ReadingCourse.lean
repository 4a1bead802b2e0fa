import Arith.Proofs.PanicRecovery

namespace Arith.Parsing

/-- How far an expression is read: not at all, not at all but with room for it, or up to the end of `left`. -/
inductive Stage where
  | before
  | inside
  | behind (left : Tree)

/-- From `p` at some stage to `q` an expression of the level was read to its end, and `tree` came out. -/
inductive Course : Stage → Level → Parsing → Tree → Parsing → Prop where
  | stopped {level : Level} {p : Parsing} (exceeded : p.nestingExceeded = true) :
      Course .before level p (.placeholder p.current) p
  | full {level : Level} {p : Parsing} (running : p.nestingExceeded = false) :
      Course .before level p (.placeholder p.current) p.exceedNesting
  | enter {level : Level} {p q : Parsing} {tree : Tree} (running : p.nestingExceeded = false)
      (inner : Course .inside level p.descend tree q) : Course .before level p tree q.ascend
  | foreign {level : Level} {p : Parsing} (running : p.nestingExceeded = false)
      (foreign : p.current.kind.begins = false) :
      Course .inside level p (.placeholder p.current) (p.advance.report ⟨.expectedExpression, p.current⟩)
  | number {level : Level} {p q : Parsing} {tree : Tree} (running : p.nestingExceeded = false)
      (kind : p.current.kind = .number) (short : p.current.lexeme.length ≤ maxDigits)
      (onward : Course (.behind p.current.literal) level p.advance tree q) : Course .inside level p tree q
  | tooLarge {level : Level} {p q : Parsing} {tree : Tree} (running : p.nestingExceeded = false)
      (kind : p.current.kind = .number) (long : maxDigits < p.current.lexeme.length)
      (onward : Course (.behind (.placeholder p.current)) level
        (p.advance.report ⟨.numberTooLarge, p.current⟩) tree q) : Course .inside level p tree q
  | sign {level : Level} {p q r : Parsing} {operand tree : Tree} (running : p.nestingExceeded = false)
      (kind : p.current.kind = .minus ∨ p.current.kind = .bang) (inner : Course .before .unary p.advance operand q)
      (onward : Course (.behind (.apply p.current operand)) level q tree r) : Course .inside level p tree r
  | stop {level : Level} {p : Parsing} {left : Tree} (stops : p.continuation? level = none) :
      Course (.behind left) level p left p
  | deep {level binding : Level} {p : Parsing} {left : Tree} (next : p.continuation? level = some binding) :
      Course (.behind left) level p left p.exceedNesting
  | binary {level binding : Level} {p q r : Parsing} {left right tree : Tree}
      (next : p.continuation? level = some binding) (tight : binding ≠ .conditional)
      (inner : Course .before binding.tighter p.advance right q)
      (onward : Course (.behind (.combine p.current left right)) level q tree r) :
      Course (.behind left) level p tree r
  | ternary {level : Level} {p q r s : Parsing} {left whenTrue whenFalse tree : Tree}
      (next : p.continuation? level = some .conditional)
      (second : Course .before .conditional p.advance whenTrue q)
      (third : Course .before .conditional (q.consume .colon dividerMessage).2 whenFalse r)
      (onward : Course (.behind (.choose left whenTrue whenFalse)) level r tree s) :
      Course (.behind left) level p tree s

section Operands

variable {operand : Reader} {room : Nat}
variable (inner : ∀ level p, Course .before level p (operand level p).1 (operand level p).2)

include inner

theorem course_extend (level : Level) (left : Tree) (p : Parsing) :
    Course (.behind left) level p (extend operand room level left p).1 (extend operand room level left p).2 := by
  fun_induction extend operand room level left p with
  | case1 left p stops => exact .stop stops
  | case2 left p binding next => exact .deep next
  | case3 left p binding next _ joined ih =>
    by_cases loose : binding = .conditional
    · subst loose
      exact .ternary next (inner _ _) (inner _ _) ih
    · have split := join_of_ne operand left p loose
      rw [show joined = _ from split] at ih ⊢
      exact .binary next loose (inner _ _) ih

theorem course_readExpression (level : Level) {p : Parsing} (running : p.nestingExceeded = false) :
    Course .inside level p (readExpression operand room level p).1 (readExpression operand room level p).2 := by
  have onward : ∀ left q,
      Course (.behind left) level q (extend operand room level left q).1 (extend operand room level left q).2 :=
    course_extend inner level
  unfold readExpression
  rcases readFirst_cases operand p with ⟨kind, short, same⟩ | ⟨kind, long, same⟩ | ⟨kind, same⟩ | ⟨foreign, same⟩ <;>
    rw [same]
  · exact .number running kind short (onward _ _)
  · exact .tooLarge running kind long (onward _ _)
  · exact .sign running kind (inner _ _) (onward _ _)
  · exact .foreign running foreign

end Operands

theorem course_parseWithin (room : Nat) (level : Level) (p : Parsing) :
    Course .before level p (parseWithin room level p).1 (parseWithin room level p).2 := by
  induction room generalizing level p with
  | zero =>
    cases running : p.nestingExceeded with
    | true =>
      rw [parseWithin_of_exceeded running]
      exact .stopped running
    | false => exact .full running
  | succ room ih =>
    cases running : p.nestingExceeded with
    | true =>
      rw [parseWithin_of_exceeded running]
      exact .stopped running
    | false =>
      rw [parseWithin_succ running]
      exact .enter running (course_readExpression ih level (p := p.descend) running)

theorem course_parse (level : Level) (p : Parsing) : Course .before level p (p.parse level).1 (p.parse level).2 :=
  course_parseWithin _ level p

/-- Only placeholders can be read here: no token is passed any more. -/
def Spent (p : Parsing) : Prop := p.nestingExceeded = true ∨ p.current.kind = .endOfInput

theorem Spent.consume {p : Parsing} (spent : p.Spent) (message : String) : (p.consume .colon message).2.Spent := by
  rcases spent with exceeded | stop
  · rw [consume_of_exceeded exceeded]
    exact .inl exceeded
  · rcases consume_cases .colon message p with ⟨_, same⟩ | ⟨_, divides, _⟩ | ⟨_, _, same⟩
    · rw [same]
      exact .inr stop
    · rw [stop] at divides
      cases divides
    · rw [same]
      exact .inr (by rwa [current_report])

def HoldsStill (p q : Parser) : Prop := p.nestingExceeded = true → q.nestingExceeded = true ∧ q.current = p.current

theorem holdsStill_of_running {p q : Parser} (running : p.nestingExceeded = false) : HoldsStill p q := by
  intro exceeded
  rw [running] at exceeded
  cases exceeded

theorem holdsStill_report (error : SyntaxError) (p : Parsing) : HoldsStill p.toParser (p.report error).toParser := by
  intro exceeded
  rw [nestingExceeded_report, current_report]
  exact ⟨exceeded, rfl⟩

theorem holdsStill_consume (expected : Token.Kind) (message : String) (p : Parsing) :
    HoldsStill p.toParser (p.consume expected message).2.toParser := by
  intro exceeded
  rw [consume_of_exceeded exceeded]
  exact ⟨exceeded, rfl⟩

theorem Moves.holdsStill {p q : Parsing} (moves : Moves p q) : HoldsStill p.toParser q.toParser := by
  intro exceeded
  apply moves.preserve (motive := fun q => q.nestingExceeded = true ∧ q.current = p.current)
  · intro a b move still
    cases move with
    | pass running | refuse running =>
      rw [still.1] at running
      cases running
    | divide => rwa [consume_of_exceeded still.1]
    | exceed => exact ⟨nestingExceeded_exceedNesting a, (current_exceedNesting a).trans still.2⟩
    | descend | ascend => exact still
  · exact ⟨exceeded, rfl⟩

theorem Rests.current_mem {tokens : List Token} {p : Parsing} (rests : Rests tokens p) : p.current ∈ tokens := by
  obtain ⟨behind, ahead⟩ := head_ahead p
  apply rests.within.subset
  rw [ahead]
  exact List.mem_cons_self

namespace Course

variable {stage : Stage} {level : Level} {p q : Parsing} {tree : Tree}

theorem moves (course : Course stage level p tree q) : Moves p q := by
  induction course with
  | stopped | stop => exact .refl _
  | full | deep => exact (Move.exceed _).moves
  | enter _ _ ih => exact (Move.descend _).moves.trans (ih.trans (Move.ascend _).moves)
  | foreign running foreign => exact (Move.refuse running (.expectedExpression foreign)).moves
  | number running kind _ _ ih => exact (Move.pass running (by rw [kind]; decide)).moves.trans ih
  | tooLarge running kind long _ ih => exact (Move.refuse running (.numberTooLarge kind long)).moves.trans ih
  | sign running kind _ _ inner onward =>
    exact (Move.pass running (Token.Kind.ne_of_sign kind).1).moves.trans (inner.trans onward)
  | binary next _ _ _ inner onward => exact (moves_of_continuation next).trans (inner.trans onward)
  | ternary next _ _ _ second third onward =>
    exact (moves_of_continuation next).trans (second.trans ((Move.divide _).moves.trans (third.trans onward)))

/-- Reading ends where no operator of the level follows, unless it is cut short: by the limit, or by a token that
begins no expression. -/
theorem ends (course : Course stage level p tree q) :
    q.nestingExceeded = true ∨ ¬ q.current.kind.Continues level ∨ q.panicking = true ∧ tree.IsError := by
  induction course with
  | stopped exceeded => exact .inl exceeded
  | full | deep => exact .inl (nestingExceeded_exceedNesting _)
  | enter _ _ ih => exact ih
  | foreign => exact .inr (.inr ⟨panicking_report _ _, rfl⟩)
  | @stop level p left stops =>
    cases running : p.nestingExceeded with
    | true => exact .inl rfl
    | false => exact .inr (.inl ((continuation?_eq_none_iff running).mp stops))
  | number _ _ _ _ ih | tooLarge _ _ _ _ ih => exact ih
  | sign _ _ _ _ _ ih | binary _ _ _ _ _ ih | ternary _ _ _ _ _ _ ih => exact ih

theorem tree_of_spent (course : Course .before level p tree q) (spent : p.Spent) : tree = .placeholder p.current := by
  cases course with
  | stopped | full => rfl
  | enter running inner =>
    have stop : p.current.kind = .endOfInput := spent.resolve_left (ne_true_of_eq_false running)
    have begins : p.descend.current.kind.begins = false := by
      show p.current.kind.begins = false
      rw [stop]
      rfl
    cases inner with
    | foreign => rfl
    | number _ kind | tooLarge _ kind =>
      rw [kind] at begins
      cases begins
    | sign _ kind =>
      rcases kind with kind | kind <;>
        · rw [kind] at begins
          cases begins

theorem isError_of_spent (course : Course .before level p tree q) (spent : p.Spent) : tree.IsError := by
  rw [course.tree_of_spent spent]
  rfl

end Course

end Arith.Parsing
