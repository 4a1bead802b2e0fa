import Arith.Proofs.ReadingCourse
import Arith.Proofs.TokenTiling
import Arith.Proofs.TreePlaces
import Arith.Tree.Printer

namespace Arith

def Span.Within (inner outer : Span) : Prop :=
  outer.start.offset ≤ inner.start.offset ∧ inner.stop.offset ≤ outer.stop.offset

namespace Tree

/-- The first token or the leftmost operand gives the start, the last operand the end. -/
def Framed : Tree → Prop
  | error span | number _ span => span.start = span.stop
  | unary operator operand span => span = ⟨operator.location, operand.span.stop⟩
  | binary _ left right span => span = ⟨left.span.start, right.span.stop⟩
  | ternary condition _ whenFalse span => span = ⟨condition.span.start, whenFalse.span.stop⟩

/-- Operators and operands follow each other. An error node may stand where the operand before it ends. -/
def Apart : Tree → Prop
  | error _ | number _ _ => True
  | unary operator operand _ => operator.location.offset < operand.span.start.offset
  | binary operator left right _ =>
    left.span.stop.offset < operator.location.offset ∧ operator.location.offset < right.span.start.offset
  | ternary condition whenTrue whenFalse _ =>
    condition.span.stop.offset < whenTrue.span.start.offset ∧
      whenTrue.span.stop.offset ≤ whenFalse.span.start.offset ∧
      (¬ whenFalse.IsError → whenTrue.span.stop.offset < whenFalse.span.start.offset)

structure Ordered (length : Nat) (t : Tree) : Prop where
  forward : t.span.start.offset ≤ t.span.stop.offset
  bounded : t.span.stop.offset ≤ length
  nested : ∀ child ∈ t.children, child.span.Within t.span
  framed : t.Framed
  apart : t.Apart

def Laid (length : Nat) (t : Tree) : Prop := ∀ node ∈ t.nodes, node.Ordered length

namespace Laid

variable {length : Nat} {operator token : Token} {t left right condition whenTrue whenFalse : Tree}

theorem root (laid : t.Laid length) : t.Ordered length := laid t t.self_mem_nodes

theorem literal (bounded : token.location.offset ≤ length) : token.literal.Laid length := by
  have here : token.literal.Ordered length := ⟨Int.le_refl _, bounded, nofun, rfl, trivial⟩
  exact List.forall_mem_singleton.mpr here

theorem placeholder (bounded : token.location.offset ≤ length) : (placeholder token).Laid length := by
  have here : (Tree.placeholder token).Ordered length := ⟨Int.le_refl _, bounded, nofun, rfl, trivial⟩
  exact List.forall_mem_singleton.mpr here

theorem apply (operand : right.Laid length) (apart : operator.location.offset < right.span.start.offset) :
    (apply operator right).Laid length := by
  have forward := operand.root.forward
  have here : (Tree.apply operator right).Ordered length := by
    constructor
    · show operator.location.offset ≤ right.span.stop.offset
      omega
    · exact operand.root.bounded
    · exact List.forall_mem_singleton.mpr ⟨Int.le_of_lt apart, Int.le_refl _⟩
    · rfl
    · exact apart
  exact List.forall_mem_cons.mpr ⟨here, operand⟩

theorem combine (first : left.Laid length) (before : left.span.stop.offset < operator.location.offset)
    (second : right.Laid length) (behind : operator.location.offset < right.span.start.offset) :
    (combine operator left right).Laid length := by
  have forward := first.root.forward
  have onward := second.root.forward
  have here : (Tree.combine operator left right).Ordered length := by
    constructor
    · show left.span.start.offset ≤ right.span.stop.offset
      omega
    · exact second.root.bounded
    · intro child member
      show left.span.start.offset ≤ child.span.start.offset ∧ child.span.stop.offset ≤ right.span.stop.offset
      simp only [Tree.combine, children, List.mem_cons, List.not_mem_nil, or_false] at member
      rcases member with rfl | rfl <;> omega
    · rfl
    · exact ⟨before, behind⟩
  exact List.forall_mem_cons.mpr ⟨here, List.forall_mem_append.mpr ⟨first, second⟩⟩

theorem choose (first : condition.Laid length) (asked : condition.span.stop.offset < whenTrue.span.start.offset)
    (second : whenTrue.Laid length) (divided : whenTrue.span.stop.offset ≤ whenFalse.span.start.offset)
    (third : whenFalse.Laid length)
    (apart : ¬ whenFalse.IsError → whenTrue.span.stop.offset < whenFalse.span.start.offset) :
    (choose condition whenTrue whenFalse).Laid length := by
  have forward := first.root.forward
  have onward := second.root.forward
  have further := third.root.forward
  have here : (Tree.choose condition whenTrue whenFalse).Ordered length := by
    constructor
    · show condition.span.start.offset ≤ whenFalse.span.stop.offset
      omega
    · exact third.root.bounded
    · intro child member
      show condition.span.start.offset ≤ child.span.start.offset ∧
        child.span.stop.offset ≤ whenFalse.span.stop.offset
      simp only [Tree.choose, children, List.mem_cons, List.not_mem_nil, or_false] at member
      rcases member with rfl | rfl | rfl <;> omega
    · rfl
    · exact ⟨asked, divided, apart⟩
  have branches := List.forall_mem_append.mpr ⟨second, third⟩
  exact List.forall_mem_cons.mpr ⟨here, List.forall_mem_append.mpr ⟨first, branches⟩⟩

end Laid

end Tree

namespace Parsing

/-- The tree lies between `edge` and the current token; where the parser is spent it may end at that token. -/
structure Spreads (length : Nat) (edge : Int) (t : Tree) (p : Parsing) : Prop where
  laid : t.Laid length
  start : edge ≤ t.span.start.offset
  stop : t.span.stop.offset < p.current.location.offset ∨
    t.span.stop.offset = p.current.location.offset ∧ p.Spent

namespace Spreads

variable {length : Nat} {edge : Int} {p q : Parsing} {t : Tree}

theorem lt_of_continues {level binding : Level} (spreads : Spreads length edge t p)
    (next : p.continuation? level = some binding) : t.span.stop.offset < p.current.location.offset := by
  rcases spreads.stop with before | ⟨_, exceeded | stop⟩
  · exact before
  · exact absurd exceeded (ne_true_of_eq_false (running_of_continuation next))
  · exact absurd stop (live_of_continuation next)

theorem placeholder {token : Token} (bounded : token.location.offset ≤ length) (start : edge ≤ token.location.offset)
    (stop : token.location.offset < p.current.location.offset ∨
      token.location.offset = p.current.location.offset ∧ p.Spent) : Spreads length edge (.placeholder token) p :=
  ⟨.placeholder bounded, start, stop⟩

theorem exceed (spreads : Spreads length edge t p) : Spreads length edge t p.exceedNesting := by
  have current := current_exceedNesting p
  constructor
  · exact spreads.laid
  · exact spreads.start
  · rw [current]
    exact spreads.stop.imp id (fun here => ⟨here.1, .inl (nestingExceeded_exceedNesting p)⟩)

end Spreads

def Stage.Spreads (length : Nat) (edge : Int) (p : Parsing) : Stage → Prop
  | before | inside => edge ≤ p.current.location.offset
  | behind left => Parsing.Spreads length edge left p

section Course

variable {tokens : List Token} (sorted : tokens.Pairwise (·.location.offset < ·.location.offset))
variable {length : Nat} (bounded : ∀ t ∈ tokens, t.location.offset ≤ length)

include sorted

theorem advance_or_spent {p : Parsing} (rests : Rests tokens p) (error : SyntaxError) :
    let q := p.advance.report error
    p.current.location.offset < q.current.location.offset ∨
      p.current.location.offset = q.current.location.offset ∧ q.Spent := by
  intro q
  rw [Spent, current_report error p.advance]
  by_cases stop : p.current.kind = .endOfInput
  · have same := (errors_advance_of_end rests.settled stop).2.2
    rw [same]
    exact .inr ⟨rfl, .inr stop⟩
  · exact .inl (offset_advance_lt sorted rests.within stop)

theorem Spreads.divided {edge : Int} {q r : Parsing} {whenTrue whenFalse : Tree} (yes : Spreads length edge whenTrue q)
    (rests : Rests tokens q) (third : Course .before .conditional (q.consume .colon dividerMessage).2 whenFalse r)
    (start : (q.consume .colon dividerMessage).2.current.location.offset ≤ whenFalse.span.start.offset) :
    whenTrue.span.stop.offset ≤ whenFalse.span.start.offset ∧
      (¬ whenFalse.IsError → whenTrue.span.stop.offset < whenFalse.span.start.offset) := by
  have reached : q.current.location.offset ≤ whenFalse.span.start.offset := by
    rcases onto_consume sorted .colon dividerMessage rests.settled rests.within with further | same
    · omega
    · rwa [same] at start
  rcases yes.stop with before | ⟨here, spent⟩
  · have apart : whenTrue.span.stop.offset < whenFalse.span.start.offset := by omega
    exact ⟨Int.le_of_lt apart, fun _ => apart⟩
  · have missing := third.isError_of_spent (spent.consume dividerMessage)
    exact ⟨by omega, fun found => absurd missing found⟩

include bounded

theorem Course.spreads {stage : Stage} {level : Level} {p q : Parsing} {tree : Tree}
    (course : Course stage level p tree q) (rests : Rests tokens p) {edge : Int}
    (begun : stage.Spreads length edge p) : Spreads length edge tree q := by
  -- an operand has an edge of its own, the token behind the operator
  induction course generalizing edge with
  | stopped exceeded =>
    exact .placeholder (bounded _ rests.current_mem) begun (.inr ⟨rfl, .inl exceeded⟩)
  | @full level p running =>
    have current := congrArg (·.location.offset) (current_exceedNesting p)
    have limit := nestingExceeded_exceedNesting p
    exact .placeholder (bounded _ rests.current_mem) begun (.inr ⟨current.symm, .inl limit⟩)
  | enter _ _ ih =>
    have read := ih (rests.moves sorted (Move.descend _).moves) begun
    exact ⟨read.laid, read.start, read.stop⟩
  | foreign => exact .placeholder (bounded _ rests.current_mem) begun (advance_or_spent sorted rests _)
  | @number level p q tree running kind short _ ih =>
    have live : p.current.kind ≠ .endOfInput := by rw [kind]; decide
    have passed := offset_advance_lt sorted rests.within live
    exact ih (rests.pass sorted running live) ⟨.literal (bounded _ rests.current_mem), begun, .inl passed⟩
  | tooLarge running kind long _ ih =>
    apply ih (rests.refuse sorted running _)
    exact .placeholder (bounded _ rests.current_mem) begun (advance_or_spent sorted rests _)
  | @sign level p q r operand tree running kind inner _ first rest =>
    have live := (Token.Kind.ne_of_sign kind).1
    have passed := offset_advance_lt sorted rests.within live
    have there := rests.pass sorted running live
    have operand := first there (Int.le_refl _)
    have apart := Int.lt_of_lt_of_le passed operand.start
    exact rest (there.moves sorted inner.moves) ⟨operand.laid.apply apart, begun, operand.stop⟩
  | stop => exact begun
  | deep => exact begun.exceed
  | @binary level binding p q r left right tree next _ inner _ first rest =>
    have passed := offset_advance_lt sorted rests.within (live_of_continuation next)
    have there := rests.moves sorted (moves_of_continuation next)
    have right := first there (Int.le_refl _)
    have apart := Int.lt_of_lt_of_le passed right.start
    have joined := begun.laid.combine (begun.lt_of_continues next) right.laid apart
    exact rest (there.moves sorted inner.moves) ⟨joined, begun.start, right.stop⟩
  | @ternary level p q r s left whenTrue whenFalse tree next second third _ first middle rest =>
    have passed := offset_advance_lt sorted rests.within (live_of_continuation next)
    have there := rests.moves sorted (moves_of_continuation next)
    have yes := first there (Int.le_refl _)
    have between := there.moves sorted second.moves
    have divided := between.divide sorted dividerMessage
    have no := middle divided (Int.le_refl _)
    have asked := Int.lt_of_lt_of_le passed yes.start
    have before := begun.lt_of_continues next
    have apart := yes.divided sorted between third no.start
    have joined := begun.laid.choose (Int.lt_trans before asked) yes.laid apart.1 no.laid apart.2
    exact rest (divided.moves sorted third.moves) ⟨joined, begun.start, no.stop⟩

end Course

end Parsing

/-- Whatever text is read, the spans of the tree nest and stand in the order of the text. -/
theorem spans_ordered (source filename : String) :
    ∀ node ∈ (Parsing.ofSource source filename).expression.1.nodes, node.Ordered source.length := by
  have sorted := (Scanner.ofSource source filename).tokens_pairwise_offset
  have tiles := Scanner.tiles_tokens (Scanner.within_run source filename [])
  have bounded : ∀ t ∈ (Scanner.ofSource source filename).tokens, t.location.offset ≤ source.length := by
    intro t member
    obtain ⟨front, taken, behind, split, offset, _⟩ := (tiles.stands t member).2
    have length := congrArg List.length split
    rw [List.length_append, String.length_toList] at length
    omega
  have course := Parsing.course_parse .conditional (.ofSource source filename)
  have read := course.spreads sorted bounded (Parsing.rests_start _) (Int.le_refl _)
  exact read.laid

theorem spans_ordered_missing_branches :
    let tree := (Parsing.ofSource "1 ?" "").expression.1
    tree.print = "(?: 1 <error> <error>)" ∧ tree.Ordered "1 ?".length :=
  ⟨by decide +kernel, spans_ordered "1 ?" "" _ (Tree.self_mem_nodes _)⟩

end Arith
