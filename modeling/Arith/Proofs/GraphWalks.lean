import Arith.Proofs.NodeLinks
import Arith.Tree.Printer

namespace Arith

theorem Tree.containsError_iff (t : Tree) :
    t.containsError = true ↔ t.IsError ∨ ∃ child ∈ t.children, child.containsError = true := by
  cases t <;> simp [Tree.containsError, Tree.IsError, Tree.shape, Tree.children, or_assoc]

namespace NodeGraph

namespace Content

def shape : Content → Tree.Shape
  | error => .error
  | number _ => .number
  | unary _ _ => .unary
  | binary _ _ _ => .binary
  | ternary _ _ _ => .ternary

end Content

theorem size_link (g : NodeGraph) (below above : Nat) : (g.link below above).nodes.size = g.nodes.size :=
  Array.size_modify

theorem parentOf_link {g : NodeGraph} {below : Nat} (known : below < g.nodes.size) (above index : Nat) :
    (g.link below above).parentOf index = if below = index then some above else g.parentOf index := by
  unfold parentOf
  rw [getElem?_link]
  split
  next same =>
    subst same
    rw [Array.getElem?_eq_getElem known]
    rfl
  next => rfl

theorem remains_link (g : NodeGraph) (below above : Nat) : g.Remains (g.link below above) where
  size_le := Nat.le_of_eq (g.size_link below above).symm
  unlinked index _ := unlinked_foldl_link [below] above index g

theorem Remains.refl (g : NodeGraph) : g.Remains g := ⟨Nat.le_refl _, fun _ _ => rfl⟩

theorem Remains.trans {g h i : NodeGraph} (first : g.Remains h) (second : h.Remains i) : g.Remains i where
  size_le := Nat.le_trans first.size_le second.size_le
  unlinked index old :=
    (second.unlinked index (Nat.lt_of_lt_of_le old first.size_le)).trans (first.unlinked index old)

theorem Remains.node {g g' : NodeGraph} (remains : g.Remains g') {index : Nat} {node : Node}
    (found : g.nodes[index]? = some node) :
    ∃ later, g'.nodes[index]? = some later ∧ later.content = node.content ∧ later.span = node.span := by
  have same := remains.unlinked index (lt_size_of_getElem? found)
  rw [found, Option.map_some] at same
  obtain ⟨later, foundLater, parts⟩ := Option.map_eq_some_iff.mp same
  obtain ⟨content, span, _, _⟩ := Node.mk.inj parts
  exact ⟨later, foundLater, content, span⟩

theorem WellMade.link {g : NodeGraph} (well : g.WellMade) (below above : Nat) : (g.link below above).WellMade := by
  have origin {index : Nat} {node : Node} (found : (g.link below above).nodes[index]? = some node) :
      ∃ old, g.nodes[index]? = some old ∧ node.content = old.content ∧ node.height = old.height := by
    rw [getElem?_link] at found
    split at found
    next =>
      obtain ⟨old, before, rfl⟩ := Option.map_eq_some_iff.mp found
      exact ⟨old, before, rfl, rfl⟩
    next => exact ⟨node, found, rfl, rfl⟩
  refine ⟨?_, ?_, ?_⟩
  · intro index node found operand member
    obtain ⟨old, before, content, _⟩ := origin found
    exact well.older before operand (content ▸ member)
  · intro index node found operand member
    obtain ⟨old, before, content, _⟩ := origin found
    have known := well.known before operand (content ▸ member)
    rw [(g.remains_link below above).ref?_eq (lt_size_of_ref? known), known]
  · intro index node found
    obtain ⟨old, before, content, height⟩ := origin found
    rw [height, content, well.measured before]

theorem Content.some_tree? {content : Content} {hanging : Ref → Option Tree} (span : Span)
    (hangs : ∀ operand ∈ content.operands, (hanging operand).isSome = true) :
    ∃ tree, content.tree? hanging span = some tree := by
  cases content with
  | error | number value => exact ⟨_, rfl⟩
  | unary operator operand =>
    obtain ⟨below, found⟩ := Option.isSome_iff_exists.mp (hangs operand (by simp [operands]))
    exact ⟨.unary operator below span, by simp [tree?, found]⟩
  | binary operator left right =>
    obtain ⟨first, foundFirst⟩ := Option.isSome_iff_exists.mp (hangs left (by simp [operands]))
    obtain ⟨second, foundSecond⟩ := Option.isSome_iff_exists.mp (hangs right (by simp [operands]))
    exact ⟨.binary operator first second span, by simp [tree?, foundFirst, foundSecond]⟩
  | ternary condition whenTrue whenFalse =>
    obtain ⟨first, foundFirst⟩ := Option.isSome_iff_exists.mp (hangs condition (by simp [operands]))
    obtain ⟨second, foundSecond⟩ := Option.isSome_iff_exists.mp (hangs whenTrue (by simp [operands]))
    obtain ⟨third, foundThird⟩ := Option.isSome_iff_exists.mp (hangs whenFalse (by simp [operands]))
    exact ⟨.ternary first second third span, by simp [tree?, foundFirst, foundSecond, foundThird]⟩

theorem Content.children_tree? {content : Content} {hanging : Ref → Option Tree} {span : Span} {tree : Tree}
    (made : content.tree? hanging span = some tree) :
    tree.shape = content.shape ∧ content.operands.map hanging = tree.children.map some := by
  cases content with
  | error | number value =>
    obtain rfl := Option.some.inj made
    exact ⟨rfl, rfl⟩
  | unary operator operand =>
    obtain ⟨below, found, rest⟩ := Option.bind_eq_some_iff.mp made
    obtain rfl := Option.some.inj rest
    exact ⟨rfl, by simp [operands, Tree.children, found]⟩
  | binary operator left right =>
    obtain ⟨first, foundFirst, rest⟩ := Option.bind_eq_some_iff.mp made
    obtain ⟨second, foundSecond, rest⟩ := Option.bind_eq_some_iff.mp rest
    obtain rfl := Option.some.inj rest
    exact ⟨rfl, by simp [operands, Tree.children, foundFirst, foundSecond]⟩
  | ternary condition whenTrue whenFalse =>
    obtain ⟨first, foundFirst, rest⟩ := Option.bind_eq_some_iff.mp made
    obtain ⟨second, foundSecond, rest⟩ := Option.bind_eq_some_iff.mp rest
    obtain ⟨third, foundThird, rest⟩ := Option.bind_eq_some_iff.mp rest
    obtain rfl := Option.some.inj rest
    exact ⟨rfl, by simp [operands, Tree.children, foundFirst, foundSecond, foundThird]⟩

def IsErrorAt (g : NodeGraph) (index : Nat) : Prop := ∃ node, g.nodes[index]? = some node ∧ node.content.shape = .error

theorem Under.trans {g : NodeGraph} {root middle below : Nat} (first : g.Under root middle)
    (second : g.Under middle below) : g.Under root below := by
  induction second with
  | root => exact first
  | child _ child ih => exact .child ih child

theorem under_iff {g : NodeGraph} {root below : Nat} :
    g.Under root below ↔ below = root ∨ ∃ child ∈ g.childrenOf root, g.Under child below := by
  constructor
  · intro under
    induction under with
    | root => exact .inl rfl
    | child under child ih =>
      refine .inr ?_
      rcases ih with rfl | ⟨first, member, behind⟩
      · exact ⟨_, child, .root⟩
      · exact ⟨first, member, .child behind child⟩
  · rintro (rfl | ⟨child, member, behind⟩)
    · exact .root
    · exact (Under.child .root member).trans behind

section WellMade

variable {g : NodeGraph} (well : g.WellMade)

include well

theorem WellMade.child_lt {above below : Nat} (child : below ∈ g.childrenOf above) : below < above := by
  unfold childrenOf at child
  cases found : g.nodes[above]? with
  | none => simp [found] at child
  | some node =>
    rw [found] at child
    obtain ⟨operand, member, rfl⟩ := List.mem_map.mp child
    exact well.older found operand member

theorem WellMade.wellFounded : WellFounded fun below above => below ∈ g.childrenOf above :=
  Subrelation.wf well.child_lt Nat.lt_wfRel.wf

theorem WellMade.exists_tree {index : Nat} (made : index < g.nodes.size) : ∃ tree, g.tree? index = some tree := by
  induction index using Nat.strongRecOn with
  | ind index ih =>
    have found : g.nodes[index]? = some g.nodes[index] := Array.getElem?_eq_getElem made
    rw [well.tree?_eq found]
    refine Content.some_tree? _ fun operand member => ?_
    have older := well.older found operand member
    exact Option.isSome_iff_exists.mpr (ih operand.index older (Nat.lt_trans older made))

theorem WellMade.hung {index : Nat} {tree : Tree} (hangs : g.tree? index = some tree) :
    (tree.IsError ↔ g.IsErrorAt index) ∧ (g.childrenOf index).map g.tree? = tree.children.map some := by
  obtain ⟨node, found, made⟩ : ∃ node, g.nodes[index]? = some node ∧
      node.content.tree? (fun operand => g.tree? operand.index) node.span = some tree := by
    have hung := hangs
    rw [tree?] at hung
    obtain ⟨node, found, _⟩ := Option.bind_eq_some_iff.mp hung
    exact ⟨node, found, well.tree?_eq found ▸ hangs⟩
  obtain ⟨shape, operands⟩ := Content.children_tree? made
  constructor
  · rw [Tree.IsError, shape, IsErrorAt, found]
    simp
  · rw [← operands, childrenOf, found, Option.elim_some, Content.children, List.map_map]
    rfl

theorem WellMade.containsError_iff {index : Nat} {tree : Tree} (hangs : g.tree? index = some tree) :
    tree.containsError = true ↔ ∃ below, g.Under index below ∧ g.IsErrorAt below := by
  induction index using Nat.strongRecOn generalizing tree with
  | ind index ih =>
    obtain ⟨here, children⟩ := well.hung hangs
    have below : (∃ child ∈ tree.children, child.containsError = true) ↔
        ∃ child ∈ g.childrenOf index, ∃ below, g.Under child below ∧ g.IsErrorAt below := by
      constructor
      · rintro ⟨child, member, errs⟩
        have listed : some child ∈ (g.childrenOf index).map g.tree? := children ▸ List.mem_map_of_mem member
        obtain ⟨operand, taken, hangs⟩ := List.mem_map.mp listed
        exact ⟨operand, taken, (ih operand (well.child_lt taken) hangs).mp errs⟩
      · rintro ⟨operand, taken, errs⟩
        have listed : g.tree? operand ∈ tree.children.map some := children ▸ List.mem_map_of_mem taken
        obtain ⟨child, member, hangs⟩ := List.mem_map.mp listed
        exact ⟨child, member, (ih operand (well.child_lt taken) hangs.symm).mpr errs⟩
    rw [tree.containsError_iff, here, below]
    constructor
    · rintro (errs | ⟨child, member, far, under, errs⟩)
      · exact ⟨index, .root, errs⟩
      · exact ⟨far, under_iff.mpr (.inr ⟨child, member, under⟩), errs⟩
    · rintro ⟨far, under, errs⟩
      rcases under_iff.mp under with rfl | ⟨child, member, behind⟩
      · exact .inl errs
      · exact .inr ⟨child, member, far, behind, errs⟩

end WellMade

/-- What can be seen of a node, apart from the node that it is linked to. -/
structure Sight where
  shape : Tree.Shape
  children : List Nat
  height : Nat
  printed : String
  described : String
  containsError : Bool
  deriving DecidableEq, Repr

def sight? (g : NodeGraph) (index : Nat) : Option Sight :=
  g.nodes[index]?.bind fun node => (g.tree? index).map fun tree =>
    ⟨node.content.shape, node.content.children, node.height, tree.print, tree.describe, tree.containsError⟩

theorem Remains.sight?_eq {g g' : NodeGraph} (remains : g.Remains g') {index : Nat} (old : index < g.nodes.size) :
    g'.sight? index = g.sight? index := by
  have here := remains.unlinked index old
  rw [Array.getElem?_eq_getElem old, Option.map_some] at here
  obtain ⟨node, found, same⟩ := Option.map_eq_some_iff.mp here
  obtain ⟨content, _, height, _⟩ := Node.mk.inj same
  rw [sight?, sight?, found, Array.getElem?_eq_getElem old, remains.tree?_eq old, Option.bind_some, Option.bind_some,
    content, height]

theorem WellMade.sight?_eq {g : NodeGraph} (well : g.WellMade) {index : Nat} {node : Node} {tree : Tree}
    (found : g.nodes[index]? = some node) (hangs : g.tree? index = some tree) :
    g.sight? index = some ⟨tree.shape, g.childrenOf index, g.heightOf index, tree.print, tree.describe,
      tree.containsError⟩ := by
  have made := hangs
  rw [well.tree?_eq found] at made
  rw [sight?, childrenOf, heightOf, found, hangs, (Content.children_tree? made).1]
  rfl

end NodeGraph

end Arith
