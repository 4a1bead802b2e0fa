import Arith.NodeGraph

namespace Arith.NodeGraph

theorem getElem?_link (g : NodeGraph) (below above index : Nat) :
    (g.link below above).nodes[index]? =
      if below = index then g.nodes[index]?.map ({ · with parent := some above })
      else g.nodes[index]? := Array.getElem?_modify

theorem getElem?_foldl_link (children : List Nat) (above index : Nat) (g : NodeGraph) :
    (children.foldl (·.link · above) g).nodes[index]? =
      if index ∈ children then g.nodes[index]?.map ({ · with parent := some above })
      else g.nodes[index]? := by
  induction children generalizing g with
  | nil => rfl
  | cons child children ih =>
    rw [List.foldl_cons, ih, getElem?_link]
    by_cases first : child = index
    · subst first
      simp [Option.map_map, Function.comp_def]
    · simp [first, Ne.symm first]

theorem size_foldl_link (children : List Nat) (above : Nat) (g : NodeGraph) :
    (children.foldl (·.link · above) g).nodes.size = g.nodes.size := by
  induction children generalizing g with
  | nil => rfl
  | cons child children ih =>
    rw [List.foldl_cons, ih]
    exact Array.size_modify

theorem lt_size_of_getElem? {g : NodeGraph} {index : Nat} {node : Node}
    (found : g.nodes[index]? = some node) : index < g.nodes.size :=
  (Array.getElem?_eq_some_iff.mp found).1

theorem lt_size_of_ref? {g : NodeGraph} {index : Nat} {node : Ref} (known : g.ref? index = some node) :
    index < g.nodes.size := by
  obtain ⟨_, found, _⟩ := Option.map_eq_some_iff.mp known
  exact lt_size_of_getElem? found

theorem older_of_known {g : NodeGraph} {content : Content}
    (known : ∀ operand ∈ content.operands, g.ref? operand.index = some operand) :
    ∀ child ∈ content.children, child < g.nodes.size := by
  intro child mem
  obtain ⟨operand, taken, rfl⟩ := List.mem_map.mp mem
  exact lt_size_of_ref? (known operand taken)

theorem getElem?_size (g : NodeGraph) : g.nodes[g.nodes.size]? = none :=
  Array.getElem?_eq_none (Nat.le_refl _)

section Add

variable {g : NodeGraph} {content : Content} (older : ∀ child ∈ content.children, child < g.nodes.size)
  (span : Span)

theorem index_add (g : NodeGraph) (content : Content) : (g.add content span).1.index = g.nodes.size := rfl

theorem size_add (g : NodeGraph) (content : Content) :
    (g.add content span).2.nodes.size = g.nodes.size + 1 := by
  simp only [add, size_foldl_link, Array.size_push]

include older

theorem getElem?_add (index : Nat) :
    (g.add content span).2.nodes[index]? =
      if index = g.nodes.size then some ⟨content, span, content.height, none⟩
      else if index ∈ content.children then
        g.nodes[index]?.map ({ · with parent := some g.nodes.size })
      else g.nodes[index]? := by
  simp only [add, getElem?_foldl_link, Array.getElem?_push]
  by_cases last : index = g.nodes.size
  · have fresh : index ∉ content.children := fun child => Nat.ne_of_lt (older index child) last
    simp only [last, if_true, if_neg (last ▸ fresh)]
  · simp only [if_neg last]

theorem getElem?_add_cases {index : Nat} {node : Node}
    (found : (g.add content span).2.nodes[index]? = some node) :
    (∃ old, g.nodes[index]? = some old ∧ node.content = old.content ∧ node.height = old.height) ∨
      index = g.nodes.size ∧ node = ⟨content, span, content.height, none⟩ := by
  rw [getElem?_add older] at found
  split at found
  next last => exact .inr ⟨last, (Option.some.inj found).symm⟩
  next =>
    split at found
    next =>
      obtain ⟨old, before, rfl⟩ := Option.map_eq_some_iff.mp found
      exact .inl ⟨old, before, rfl, rfl⟩
    next => exact .inl ⟨node, found, rfl, rfl⟩

theorem ref?_add_self : (g.add content span).2.ref? g.nodes.size = some (g.add content span).1 := by
  rw [ref?, getElem?_add older, if_pos rfl]
  rfl

theorem parentOf_add (index : Nat) :
    (g.add content span).2.parentOf index =
      if index ∈ content.children then some g.nodes.size else g.parentOf index := by
  unfold parentOf
  rw [getElem?_add older]
  by_cases last : index = g.nodes.size
  · have fresh : index ∉ content.children := fun child => Nat.ne_of_lt (older index child) last
    rw [if_pos last, if_neg fresh, last, getElem?_size]
    rfl
  · rw [if_neg last]
    split
    next child =>
      rw [Array.getElem?_eq_getElem (older index child)]
      rfl
    next => rfl

theorem childrenOf_add (index : Nat) :
    (g.add content span).2.childrenOf index =
      if index = g.nodes.size then content.children else g.childrenOf index := by
  unfold childrenOf
  rw [getElem?_add older]
  split
  next => rfl
  next =>
    split
    next child =>
      rw [Array.getElem?_eq_getElem (older index child)]
      rfl
    next => rfl

end Add

theorem childrenOf_size (g : NodeGraph) : g.childrenOf g.nodes.size = [] := by
  rw [childrenOf, getElem?_size]
  rfl

theorem heightOf_of_ref? {g : NodeGraph} {index : Nat} {node : Ref} (known : g.ref? index = some node) :
    g.heightOf index = node.height := by
  obtain ⟨stored, found, rfl⟩ := Option.map_eq_some_iff.mp known
  rw [heightOf, found, Option.elim_some]

theorem Content.height_eq (content : Content) :
    content.height = (content.operands.map (·.height)).foldr max 0 + 1 := by
  cases content <;> simp [height, operands]

theorem Content.tree?_congr {content : Content} {hanging hanging' : Ref → Option Tree} (span : Span)
    (same : ∀ operand ∈ content.operands, hanging operand = hanging' operand) :
    content.tree? hanging span = content.tree? hanging' span := by
  cases content with
  | error => rfl
  | number value => rfl
  | unary operator operand => simp only [tree?, same operand (by simp [operands])]
  | binary operator left right =>
    simp only [tree?, same left (by simp [operands]), same right (by simp [operands])]
  | ternary condition whenTrue whenFalse =>
    simp only [tree?, same condition (by simp [operands]), same whenTrue (by simp [operands]),
      same whenFalse (by simp [operands])]

theorem Content.measure_tree? {content : Content} {hanging : Ref → Option Tree} {span : Span} {tree : Tree}
    (measured : ∀ operand ∈ content.operands, ∀ below ∈ hanging operand, operand.height = below.height)
    (made : content.tree? hanging span = some tree) : content.height = tree.height ∧ span = tree.span := by
  cases content with
  | error | number =>
    obtain rfl := Option.some.inj made
    exact ⟨rfl, rfl⟩
  | unary operator operand =>
    obtain ⟨below, hangs, rest⟩ := Option.bind_eq_some_iff.mp made
    obtain rfl := Option.some.inj rest
    have height := measured operand (by simp [operands]) below hangs
    exact ⟨by rw [Content.height, Tree.height, height], rfl⟩
  | binary operator left right =>
    obtain ⟨first, hangsFirst, rest⟩ := Option.bind_eq_some_iff.mp made
    obtain ⟨second, hangsSecond, rest⟩ := Option.bind_eq_some_iff.mp rest
    obtain rfl := Option.some.inj rest
    have left := measured left (by simp [operands]) first hangsFirst
    have right := measured right (by simp [operands]) second hangsSecond
    exact ⟨by rw [Content.height, Tree.height, left, right], rfl⟩
  | ternary condition whenTrue whenFalse =>
    obtain ⟨first, hangsFirst, rest⟩ := Option.bind_eq_some_iff.mp made
    obtain ⟨second, hangsSecond, rest⟩ := Option.bind_eq_some_iff.mp rest
    obtain ⟨third, hangsThird, rest⟩ := Option.bind_eq_some_iff.mp rest
    obtain rfl := Option.some.inj rest
    have condition := measured condition (by simp [operands]) first hangsFirst
    have whenTrue := measured whenTrue (by simp [operands]) second hangsSecond
    have whenFalse := measured whenFalse (by simp [operands]) third hangsThird
    exact ⟨by rw [Content.height, Tree.height, condition, whenTrue, whenFalse], rfl⟩

def Node.unlinked (node : Node) : Node := { node with parent := none }

structure Remains (g g' : NodeGraph) : Prop where
  size_le : g.nodes.size ≤ g'.nodes.size
  unlinked : ∀ index < g.nodes.size,
    g'.nodes[index]?.map Node.unlinked = g.nodes[index]?.map Node.unlinked

theorem unlinked_foldl_link (children : List Nat) (above index : Nat) (g : NodeGraph) :
    (children.foldl (·.link · above) g).nodes[index]?.map Node.unlinked =
      g.nodes[index]?.map Node.unlinked := by
  rw [getElem?_foldl_link]
  split
  · rw [Option.map_map]
    rfl
  · rfl

theorem remains_add (g : NodeGraph) (content : Content) (span : Span) : g.Remains (g.add content span).2 where
  size_le := by
    rw [size_add]
    exact Nat.le_succ _
  unlinked index old := by
    simp only [add, unlinked_foldl_link, Array.getElem?_push, if_neg (Nat.ne_of_lt old)]

section Remains

variable {g g' : NodeGraph} (remains : g.Remains g') {index : Nat} (old : index < g.nodes.size)

include remains old

theorem Remains.ref?_eq : g'.ref? index = g.ref? index := by
  have parts := congrArg (Option.map fun node => Ref.mk index node.span node.height) (remains.unlinked index old)
  rwa [Option.map_map, Option.map_map] at parts

theorem Remains.tree?_eq : g'.tree? index = g.tree? index := by
  induction index using Nat.strongRecOn with
  | ind index ih =>
    have here := remains.unlinked index old
    rw [Array.getElem?_eq_getElem old, Option.map_some] at here
    obtain ⟨node, found, same⟩ := Option.map_eq_some_iff.mp here
    obtain ⟨content, span, _, _⟩ := Node.mk.inj same
    rw [tree?, tree?, found, Array.getElem?_eq_getElem old, Option.bind_some, Option.bind_some, content, span]
    refine Content.tree?_congr _ fun operand _ => ?_
    by_cases older : operand.index < index
    · rw [dif_pos older, dif_pos older]
      exact ih operand.index older (Nat.lt_trans older old)
    · rw [dif_neg older, dif_neg older]

end Remains

/-- Every node was made on top of older ones, with the height that theirs give it. -/
structure WellMade (g : NodeGraph) : Prop where
  older : ∀ {index : Nat} {node : Node}, g.nodes[index]? = some node →
    ∀ operand ∈ node.content.operands, operand.index < index
  known : ∀ {index : Nat} {node : Node}, g.nodes[index]? = some node →
    ∀ operand ∈ node.content.operands, g.ref? operand.index = some operand
  measured : ∀ {index : Nat} {node : Node}, g.nodes[index]? = some node → node.height = node.content.height

theorem WellMade.empty : WellMade .empty where
  older found := by cases found
  known found := by cases found
  measured found := by cases found

section WellMade

variable {g : NodeGraph} (well : g.WellMade)

include well

theorem WellMade.add {content : Content}
    (known : ∀ operand ∈ content.operands, g.ref? operand.index = some operand) (span : Span) :
    (g.add content span).2.WellMade := by
  have older := older_of_known known
  have keep {operand : Ref} (before : g.ref? operand.index = some operand) :
      (g.add content span).2.ref? operand.index = some operand := by
    rw [(g.remains_add content span).ref?_eq (lt_size_of_ref? before), before]
  refine ⟨?_, ?_, ?_⟩
  · intro index node found operand mem
    rcases getElem?_add_cases older span found with ⟨old, before, same, _⟩ | ⟨rfl, rfl⟩
    · exact well.older before operand (same ▸ mem)
    · exact older _ (List.mem_map_of_mem mem)
  · intro index node found operand mem
    rcases getElem?_add_cases older span found with ⟨old, before, same, _⟩ | ⟨rfl, rfl⟩
    · exact keep (well.known before operand (same ▸ mem))
    · exact keep (known operand mem)
  · intro index node found
    rcases getElem?_add_cases older span found with ⟨old, before, same, height⟩ | ⟨rfl, rfl⟩
    · rw [height, same, well.measured before]
    · rfl

theorem WellMade.tree?_eq {index : Nat} {node : Node} (found : g.nodes[index]? = some node) :
    g.tree? index = node.content.tree? (fun operand => g.tree? operand.index) node.span := by
  rw [tree?, found, Option.bind_some]
  exact Content.tree?_congr _ fun operand mem => dif_pos (well.older found operand mem)

theorem WellMade.measure_eq {index : Nat} {node : Ref} {tree : Tree} (known : g.ref? index = some node)
    (hangs : g.tree? index = some tree) : node.height = tree.height ∧ node.span = tree.span := by
  induction index using Nat.strongRecOn generalizing node tree with
  | ind index ih =>
    obtain ⟨stored, found, rfl⟩ := Option.map_eq_some_iff.mp known
    rw [well.tree?_eq found] at hangs
    have operands : ∀ operand ∈ stored.content.operands, ∀ below ∈ g.tree? operand.index,
        operand.height = below.height := fun operand mem _ hangs =>
      (ih operand.index (well.older found operand mem) (well.known found operand mem) hangs).1
    obtain ⟨height, span⟩ := Content.measure_tree? operands hangs
    exact ⟨(well.measured found).trans height, span⟩

theorem WellMade.heightOf_eq {index : Nat} (made : index < g.nodes.size) :
    g.heightOf index = ((g.childrenOf index).map g.heightOf).foldr max 0 + 1 := by
  have found : g.nodes[index]? = some g.nodes[index] := Array.getElem?_eq_getElem made
  have heights : (g.childrenOf index).map g.heightOf = g.nodes[index].content.operands.map (·.height) := by
    rw [childrenOf, found, Option.elim_some, Content.children, List.map_map]
    exact List.map_congr_left fun operand mem => heightOf_of_ref? (well.known found operand mem)
  calc g.heightOf index = g.nodes[index].height := by rw [heightOf, found, Option.elim_some]
    _ = g.nodes[index].content.height := well.measured found
    _ = (g.nodes[index].content.operands.map (·.height)).foldr max 0 + 1 := Content.height_eq _
    _ = ((g.childrenOf index).map g.heightOf).foldr max 0 + 1 := by rw [heights]

end WellMade

/-- No two nodes share an operand, and the links lead from the operands back to the nodes that took them. -/
structure Sound (g : NodeGraph) : Prop extends WellMade g where
  distinct : ∀ index, (g.childrenOf index).Nodup
  linked : ∀ {below above : Nat}, g.parentOf below = some above ↔ below ∈ g.childrenOf above

theorem Sound.empty : Sound .empty where
  toWellMade := .empty
  distinct _ := List.nodup_nil
  linked := ⟨fun link => (by cases link), fun child => (by cases child)⟩

section Sound

variable {g : NodeGraph} (sound : g.Sound)

include sound

theorem Sound.linked_add {content : Content} (older : ∀ child ∈ content.children, child < g.nodes.size)
    (free : ∀ child ∈ content.children, g.parentOf child = none) (span : Span) (below above : Nat) :
    (g.add content span).2.parentOf below = some above ↔
      below ∈ (g.add content span).2.childrenOf above := by
  rw [parentOf_add older, childrenOf_add older]
  by_cases taken : below ∈ content.children
  · rw [if_pos taken]
    by_cases last : above = g.nodes.size
    · simp only [last, if_true, taken]
    · -- an operand of the new node is one of no other, because it had no link
      have elsewhere : below ∉ g.childrenOf above := fun child => by
        have link := sound.linked.mpr child
        rw [free below taken] at link
        cases link
      simp only [if_neg last, elsewhere, iff_false, Option.some.injEq]
      exact Ne.symm last
  · rw [if_neg taken, sound.linked]
    by_cases last : above = g.nodes.size
    · simp only [last, if_true, taken, childrenOf_size, List.not_mem_nil]
    · rw [if_neg last]

/-- Nodes that hung under nothing may be taken as operands, each once. -/
theorem Sound.add {content : Content}
    (known : ∀ operand ∈ content.operands, g.ref? operand.index = some operand)
    (free : ∀ child ∈ content.children, g.parentOf child = none) (distinct : content.children.Nodup)
    (span : Span) : (g.add content span).2.Sound := by
  have older := older_of_known known
  refine ⟨sound.toWellMade.add known span, fun index => ?_, sound.linked_add older free span _ _⟩
  rw [childrenOf_add older]
  split
  · exact distinct
  · exact sound.distinct index

theorem Sound.made_of_child {above below : Nat} (child : below ∈ g.childrenOf above) :
    below < g.nodes.size := by
  obtain ⟨_, found, _⟩ := Option.bind_eq_some_iff.mp (sound.linked.mpr child)
  exact lt_size_of_getElem? found

end Sound

inductive Under (g : NodeGraph) (root : Nat) : Nat → Prop where
  | root : Under g root root
  | child {above below : Nat} (under : Under g root above) (child : below ∈ g.childrenOf above) :
      Under g root below

/-- What is reached from `root` is a tree: every node but the root is an operand of one node, once, and
is linked to it, and every node is one level higher than the highest of its operands. -/
structure IsTree (g : NodeGraph) (root : Nat) : Prop where
  rootless : g.parentOf root = none
  topmost : ∀ above, root ∉ g.childrenOf above
  distinct : ∀ index, g.Under root index → (g.childrenOf index).Nodup
  linked : ∀ index, g.Under root index → index ≠ root →
    ∃ above, g.Under root above ∧ g.parentOf index = some above ∧
      ∀ other, index ∈ g.childrenOf other ↔ other = above
  heights : ∀ index, g.Under root index →
    g.heightOf index = ((g.childrenOf index).map g.heightOf).foldr max 0 + 1

theorem Sound.isTree {g : NodeGraph} (sound : g.Sound) {root : Nat} (made : root < g.nodes.size)
    (rootless : g.parentOf root = none) : g.IsTree root where
  rootless := rootless
  topmost above child := by
    have link := sound.linked.mpr child
    rw [rootless] at link
    cases link
  distinct index _ := sound.distinct index
  linked index under apart := by
    cases under with
    | root => exact absurd rfl apart
    | @child above _ under child =>
      have link := sound.linked.mpr child
      refine ⟨above, under, link, fun other => ⟨fun another => ?_, fun same => same ▸ child⟩⟩
      exact Option.some.inj ((sound.linked.mpr another).symm.trans link)
  heights index under := by
    cases under with
    | root => exact sound.heightOf_eq made
    | child _ child => exact sound.heightOf_eq (sound.made_of_child child)

end Arith.NodeGraph
