import Arith.Proofs.PanicRecovery
import Arith.Tree.Outline

namespace Arith

namespace Tree

def nodes : Tree → List Tree
  | t@(error _) | t@(number _ _) => [t]
  | t@(unary _ operand _) => t :: operand.nodes
  | t@(binary _ left right _) => t :: (left.nodes ++ right.nodes)
  | t@(ternary condition whenTrue whenFalse _) => t :: (condition.nodes ++ (whenTrue.nodes ++ whenFalse.nodes))

theorem self_mem_nodes (t : Tree) : t ∈ t.nodes := by
  cases t <;> exact List.mem_cons_self

theorem map_tree_outlineAt (t : Tree) (parent : Option Nat) (index : Nat) :
    (t.outlineAt parent index).map Entry.tree = t.nodes := by
  induction t generalizing parent index with
  | error | number => rfl
  | unary operator operand span ih => rw [outlineAt, nodes, List.map_cons, ih]
  | binary operator left right span ihl ihr => rw [outlineAt, nodes, List.map_cons, List.map_append, ihl, ihr]
  | ternary condition whenTrue whenFalse span ihc iht ihf =>
    rw [outlineAt, nodes, List.map_cons, List.map_append, List.map_append, ihc, iht, ihf]

theorem map_tree_outline (t : Tree) : t.outline.map Entry.tree = t.nodes := t.map_tree_outlineAt none 0

/-- The token of the node was passed before `here`, or the node stands at `here` for an expression that is not. -/
def StandsBefore (here : Location) : Tree → Prop
  | error span => span.start.offset < here.offset ∨ span = .point here
  | number _ span => span.start.offset < here.offset
  | unary operator _ _ | binary operator _ _ _ => operator.location.offset < here.offset
  | ternary _ _ _ _ => True

namespace StandsBefore

variable {here : Location} {t : Tree}

theorem literal (stands : t.StandsBefore here) (number : t.shape = .number) : t.span.start.offset < here.offset := by
  cases t with
  | number => exact stands
  | _ => cases number

theorem operator (stands : t.StandsBefore here) : ∀ operator ∈ t.operator?, operator.location.offset < here.offset := by
  rintro operator found
  cases t with
  | unary | binary =>
    cases found
    exact stands
  | _ => cases found

theorem placeholder (stands : t.StandsBefore here) (error : t.IsError) (reached : ¬ t.span.start.offset < here.offset) :
    t.span = .point here := by
  cases t with
  | error => exact stands.resolve_left reached
  | _ => cases error

end StandsBefore

def Behind (here : Location) (t : Tree) : Prop := ∀ node ∈ t.nodes, node.StandsBefore here

theorem Behind.entry {here : Location} {t : Tree} (behind : t.Behind here) :
    ∀ entry ∈ t.outline, entry.tree.StandsBefore here := by
  intro entry member
  apply behind
  rw [← t.map_tree_outline]
  exact List.mem_map_of_mem member

namespace Behind

variable {here there : Location} {operator token : Token} {left right condition whenTrue whenFalse : Tree}

theorem literal (passed : token.location.offset < here.offset) : token.literal.Behind here := by
  intro node member
  rw [List.mem_singleton.mp member]
  exact passed

theorem placeholder (reached : token.location.offset < here.offset ∨ token.location = here) :
    (placeholder token).Behind here := by
  intro node member
  rw [List.mem_singleton.mp member]
  exact reached.imp id (congrArg Span.point)

theorem apply (passed : operator.location.offset < here.offset) (operand : right.Behind here) :
    (apply operator right).Behind here :=
  List.forall_mem_cons.mpr ⟨passed, operand⟩

theorem combine (passed : operator.location.offset < here.offset) (first : left.Behind here)
    (second : right.Behind here) : (combine operator left right).Behind here :=
  List.forall_mem_cons.mpr ⟨passed, List.forall_mem_append.mpr ⟨first, second⟩⟩

theorem choose (first : condition.Behind here) (second : whenTrue.Behind here) (third : whenFalse.Behind here) :
    (choose condition whenTrue whenFalse).Behind here :=
  List.forall_mem_cons.mpr
    ⟨trivial, List.forall_mem_append.mpr ⟨first, List.forall_mem_append.mpr ⟨second, third⟩⟩⟩

theorem mono {t : Tree} (behind : t.Behind here) (onward : here.offset < there.offset ∨ there = here) :
    t.Behind there := by
  rcases onward with further | rfl
  · intro node member
    have stands := behind node member
    cases node with
    | error span =>
      left
      rcases stands with passed | rfl
      · exact Int.lt_trans passed further
      · exact further
    | number _ span | unary _ _ span | binary _ _ _ span => exact Int.lt_trans stands further
    | ternary => trivial
  · exact behind

end Behind

end Tree

namespace Parsing

def Onto (p q : Parsing) : Prop :=
  p.current.location.offset < q.current.location.offset ∨ q.current = p.current

theorem Onto.location {p q : Parsing} (onto : Onto p q) :
    p.current.location.offset < q.current.location.offset ∨ q.current.location = p.current.location :=
  onto.imp id (congrArg Token.location)

theorem Onto.trans {p q r : Parsing} (first : Onto p q) (second : Onto q r) : Onto p r := by
  rcases second with further | same
  · left
    rcases first with before | same
    · exact Int.lt_trans before further
    · rwa [← same]
  · rw [Onto, same]
    exact first

section Places

variable {tokens : List Token} (sorted : tokens.Pairwise (·.location.offset < ·.location.offset))

include sorted

theorem onto_advance {p : Parsing} (settled : p.Settled) (within : p.ahead <:+ tokens) : Onto p p.advance := by
  by_cases stop : p.current.kind = .endOfInput
  · exact .inr (errors_advance_of_end settled stop).2.2
  · exact .inl (offset_advance_lt sorted within stop)

theorem onto_consume (expected : Token.Kind) (message : String) {p : Parsing} (settled : p.Settled)
    (within : p.ahead <:+ tokens) : Onto p (p.consume expected message).2 := by
  rcases consume_cases expected message p with ⟨_, same⟩ | ⟨_, _, same⟩ | ⟨_, _, same⟩ <;> rw [same]
  · exact .inr rfl
  · exact onto_advance (p := { p with panicking := false }) sorted ⟨settled.valid, settled.still⟩ within
  · exact .inr (current_report _ p)

theorem Move.onto {p q : Parsing} (move : Move p q) (rests : Rests tokens p) : Onto p q := by
  cases move with
  | pass => exact onto_advance sorted rests.settled rests.within
  | refuse =>
    rw [Onto, current_report]
    exact onto_advance sorted rests.settled rests.within
  | divide => exact onto_consume sorted .colon dividerMessage rests.settled rests.within
  | exceed => exact .inr (current_exceedNesting p)
  | descend | ascend => exact .inr rfl

theorem Moves.onto {p q : Parsing} (moves : Moves p q) (rests : Rests tokens p) : Onto p q := by
  have both := moves.preserve (motive := fun q => Rests tokens q ∧ Onto p q)
    (fun move kept => ⟨kept.1.move sorted move, kept.2.trans (move.onto sorted kept.1)⟩) ⟨rests, .inr rfl⟩
  exact both.2

theorem passed_of_moves {p q : Parsing} (rests : Rests tokens p) (running : p.nestingExceeded = false)
    (live : p.current.kind ≠ .endOfInput) (moves : Moves p.advance q) :
    p.current.location.offset < q.current.location.offset := by
  have first := offset_advance_lt sorted rests.within live
  rcases moves.onto sorted (rests.pass sorted running live) with further | same
  · exact Int.lt_trans first further
  · rwa [same]

variable {operand : Reader} (moves : ∀ level p, Moves p (operand level p).2)
variable (inner : ∀ level {p : Parsing}, Rests tokens p →
  (operand level p).1.Behind (operand level p).2.current.location)

include moves inner

theorem behind_readFirst {p : Parsing} (rests : Rests tokens p) (running : p.nestingExceeded = false) :
    ∀ tree, (readFirst operand p).1 = some tree → tree.Behind (readFirst operand p).2.current.location := by
  rcases readFirst_cases operand p with ⟨number, _, same⟩ | ⟨number, _, same⟩ | ⟨sign, same⟩ | ⟨_, same⟩ <;>
    rw [same] <;> rintro tree ⟨⟩
  · have live : p.current.kind ≠ .endOfInput := by rw [number]; decide
    exact .literal (offset_advance_lt sorted rests.within live)
  · have live : p.current.kind ≠ .endOfInput := by rw [number]; decide
    refine .placeholder (.inl ?_)
    rw [current_report]
    exact offset_advance_lt sorted rests.within live
  · have live := (Token.Kind.ne_of_sign sign).1
    exact .apply (passed_of_moves sorted rests running live (moves _ _)) (inner _ (rests.pass sorted running live))

theorem behind_join {level binding : Level} {left : Tree} {p : Parsing} (rests : Rests tokens p)
    (next : p.continuation? level = some binding) (stands : left.Behind p.current.location) :
    (join operand binding left p).1.Behind (join operand binding left p).2.current.location := by
  have onto := (moves_join moves left next).onto sorted rests
  have running := running_of_continuation next
  have live := live_of_continuation next
  have here := rests.pass sorted running live
  by_cases loose : binding = .conditional
  · subst loose
    rw [join_conditional] at onto ⊢
    have second := here.moves sorted (moves .conditional _)
    have middle := inner .conditional here
    have divided := (Move.divide (operand .conditional p.advance).2).moves
    have behind := (divided.trans (moves .conditional _)).onto sorted second
    exact .choose (stands.mono onto.location) (middle.mono behind.location)
      (inner .conditional (second.moves sorted divided))
  · rw [join_of_ne _ _ _ loose] at onto ⊢
    exact .combine (passed_of_moves sorted rests running live (moves _ _)) (stands.mono onto.location) (inner _ here)

theorem behind_extend (room : Nat) (level : Level) {left : Tree} {p : Parsing} (rests : Rests tokens p)
    (stands : left.Behind p.current.location) :
    (extend operand room level left p).1.Behind (extend operand room level left p).2.current.location := by
  -- over the rounds: what a round joins stands before the token where it ends
  fun_induction extend operand room level left p with
  | case1 => exact stands
  | case2 left p =>
    show left.Behind p.exceedNesting.current.location
    rwa [current_exceedNesting]
  | case3 left p binding next _ joined ih =>
    have later := rests.moves sorted (moves_join moves left next)
    exact ih later (behind_join sorted moves inner rests next stands)

theorem behind_readExpression (room : Nat) (level : Level) {p : Parsing} (rests : Rests tokens p)
    (running : p.nestingExceeded = false) :
    (readExpression operand room level p).1.Behind (readExpression operand room level p).2.current.location := by
  have first := behind_readFirst sorted moves inner rests running
  have moved := moves_readFirst moves running
  have onto := moved.onto sorted rests
  have later := rests.moves sorted moved
  unfold readExpression
  split
  · rename_i q same
    rw [same] at onto
    exact .placeholder (onto.location.imp id Eq.symm)
  · rename_i tree q same
    rw [same] at first later
    exact behind_extend sorted moves inner room level later (first tree rfl)

omit moves inner

theorem behind_parseWithin (room : Nat) (level : Level) {p : Parsing} (rests : Rests tokens p) :
    (parseWithin room level p).1.Behind (parseWithin room level p).2.current.location := by
  induction room generalizing level p with
  | zero =>
    have current := current_exceedNesting p
    exact .placeholder (.inr (congrArg Token.location current.symm))
  | succ room ih =>
    cases running : p.nestingExceeded with
    | true =>
      rw [parseWithin_of_exceeded running]
      exact .placeholder (.inr rfl)
    | false =>
      rw [parseWithin_succ running]
      have inside := rests.moves sorted (Move.descend p).moves
      exact behind_readExpression sorted (moves_parseWithin room) ih room level inside running

end Places

theorem behind_expression (source filename : String) :
    let read := (ofSource source filename).expression
    read.1.Behind read.2.current.location := by
  intro read
  have sorted := (Scanner.ofSource source filename).tokens_pairwise_offset
  have rests := rests_start (.ofSource source filename)
  have parsed := behind_parseWithin sorted (maxNesting - (ofSource source filename).depth) .conditional rests
  have later := rests.moves sorted (moves_parse .conditional _)
  exact parsed.mono (onto_consume sorted .endOfInput trailingMessage later.settled later.within).location

end Parsing

end Arith
