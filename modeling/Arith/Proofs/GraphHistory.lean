import Arith.Proofs.GraphWalks
import Mathlib.Data.List.Induction

namespace Arith

namespace NodeGraph

namespace Action

def shape? : Action → Option Tree.Shape
  | error _ => some .error
  | number _ _ => some .number
  | unary _ _ _ => some .unary
  | binary _ _ _ _ => some .binary
  | ternary _ _ _ _ => some .ternary
  | setParent _ _ | look _ => none

def Makes (action : Action) : Prop := action.shape?.isSome = true

instance (action : Action) : Decidable action.Makes := inferInstanceAs (Decidable (_ = true))

def operands : Action → List Nat
  | unary _ operand _ => [operand]
  | binary _ left right _ => [left, right]
  | ternary condition whenTrue whenFalse _ => [condition, whenTrue, whenFalse]
  | error _ | number _ _ | setParent _ _ | look _ => []

def tree? (hanging : Nat → Option Tree) : Action → Option Tree
  | error span => some (.error span)
  | number value span => some (.number value span)
  | unary operator operand span => return .unary operator (← hanging operand) span
  | binary operator left right span => return .binary operator (← hanging left) (← hanging right) span
  | ternary condition whenTrue whenFalse span =>
    return .ternary (← hanging condition) (← hanging whenTrue) (← hanging whenFalse) span
  | setParent _ _ | look _ => none

def named : Action → List Nat
  | setParent node parent => [node, parent]
  | look node => [node]
  | action => action.operands

def linked : Action → List Nat
  | setParent node _ => [node]
  | action => action.operands

/-- The node that an action links others to. A node that it makes gets the index `next`. -/
def target (next : Nat) : Action → Nat
  | setParent _ parent => parent
  | _ => next

end Action

def made (actions : List Action) : Nat := actions.countP (·.Makes)

def runFrom (g : NodeGraph) (actions : List Action) : Option NodeGraph :=
  actions.foldlM (fun g action => (g.perform action).map (·.2)) g

def run (actions : List Action) : Option NodeGraph := runFrom .empty actions

/-- No action names a node that was not made before it. -/
def InOrder (actions : List Action) : Prop :=
  ∀ (k : Nat) (bound : k < actions.length), ∀ index ∈ actions[k].named, index < made (actions.take k)

instance (actions : List Action) : Decidable (InOrder actions) :=
  inferInstanceAs (Decidable (∀ (k : Nat) (bound : k < actions.length), ∀ index ∈ actions[k].named,
    index < made (actions.take k)))

/-- The last of the actions that set the link of `index` set it to `parent`. -/
def LastLinked (actions : List Action) (index parent : Nat) : Prop :=
  ∃ before action after, actions = before ++ action :: after ∧ index ∈ action.linked ∧
    action.target (made before) = parent ∧ ∀ later ∈ after, index ∉ later.linked

theorem runFrom_append (g : NodeGraph) (front back : List Action) :
    g.runFrom (front ++ back) = (g.runFrom front).bind (·.runFrom back) := List.foldlM_append

theorem runFrom_singleton (g : NodeGraph) (action : Action) :
    g.runFrom [action] = (g.perform action).map (·.2) := by
  simp [runFrom]

theorem runFrom_cons_eq_some_iff {g g' : NodeGraph} {action : Action} {actions : List Action} :
    g.runFrom (action :: actions) = some g' ↔
      ∃ node next, g.perform action = some (node, next) ∧ next.runFrom actions = some g' := by
  simp only [runFrom, List.foldlM_cons, Option.bind_eq_bind, Option.bind_eq_some_iff, Option.map_eq_some_iff,
    Prod.exists, exists_eq_right]
  rw [exists_comm]
  simp only [exists_and_right]

theorem run_concat_eq_some_iff {actions : List Action} {action : Action} {g' : NodeGraph} :
    run (actions ++ [action]) = some g' ↔
      ∃ g node, run actions = some g ∧ g.perform action = some (node, g') := by
  simp [run, runFrom_append, runFrom_singleton, Option.bind_eq_some_iff]

theorem made_concat (actions : List Action) (action : Action) :
    made (actions ++ [action]) = made actions + if action.Makes then 1 else 0 := by
  simp [made, List.countP_append, List.countP_singleton]

theorem lastLinked_concat {actions : List Action} {action : Action} {index parent : Nat} :
    LastLinked (actions ++ [action]) index parent ↔
      if index ∈ action.linked then action.target (made actions) = parent else LastLinked actions index parent := by
  constructor
  · rintro ⟨before, last, after, split, links, target, untouched⟩
    rcases List.eq_nil_or_concat after with rfl | ⟨after, final, rfl⟩
    · obtain ⟨rfl, same⟩ := List.append_inj' split rfl
      obtain rfl := List.singleton_inj.mp same
      rwa [if_pos links]
    · rw [List.concat_eq_append, ← List.cons_append, ← List.append_assoc] at split
      obtain ⟨rfl, same⟩ := List.append_inj' split rfl
      obtain rfl := List.singleton_inj.mp same
      rw [List.concat_eq_append] at untouched
      obtain ⟨earlier, here⟩ := List.forall_mem_append.mp untouched
      rw [if_neg (here action (List.mem_singleton_self action))]
      exact ⟨before, last, after, rfl, links, target, earlier⟩
  · intro last
    split at last
    next links => exact ⟨actions, action, [], rfl, links, last, by simp⟩
    next untouched =>
      obtain ⟨before, final, after, rfl, links, target, earlier⟩ := last
      refine ⟨before, final, after ++ [action], by simp, links, target, ?_⟩
      exact List.forall_mem_append.mpr ⟨earlier, by simpa using untouched⟩

theorem inOrder_of_concat {actions : List Action} {action : Action} (inOrder : InOrder (actions ++ [action])) :
    InOrder actions ∧ ∀ index ∈ action.named, index < made actions := by
  constructor
  · intro k bound index named
    have bound' : k < (actions ++ [action]).length := by
      rw [List.length_append]
      omega
    have earlier := inOrder k bound' index
    rw [List.getElem_append_left bound, List.take_append_of_le_length (Nat.le_of_lt bound)] at earlier
    exact earlier named
  · have last := inOrder actions.length (by simp)
    simpa using last

structure Builds (g : NodeGraph) (action : Action) (content : Content) (span : Span) : Prop where
  shape : action.shape? = some content.shape
  known : ∀ operand ∈ content.operands, g.ref? operand.index = some operand
  children : content.children = action.operands
  tree : ∀ hanging : Nat → Option Tree,
    content.tree? (fun operand => hanging operand.index) span = action.tree? hanging
  linked : action.linked = action.operands
  target (next : Nat) : action.target next = next

theorem index_of_ref? {g : NodeGraph} {index : Nat} {node : Ref} (known : g.ref? index = some node) :
    node.index = index := by
  obtain ⟨_, _, rfl⟩ := Option.map_eq_some_iff.mp known
  rfl

inductive Does (g : NodeGraph) : Action → NodeGraph → Prop where
  | makes {action : Action} (content : Content) (span : Span) (builds : g.Builds action content span) :
      Does g action (g.add content span).2
  | links {node : Nat} (parent : Nat) (known : node < g.nodes.size) :
      Does g (.setParent node parent) (g.link node parent)
  | looks (node : Nat) : Does g (.look node) g

theorem does_of_perform {g g' : NodeGraph} {action : Action} {node : Ref}
    (performed : g.perform action = some (node, g')) : g.Does action g' := by
  cases action with
  | error span =>
    cases performed
    exact .makes .error span ⟨rfl, nofun, rfl, fun _ => rfl, rfl, fun _ => rfl⟩
  | number value span =>
    cases performed
    exact .makes (.number value) span ⟨rfl, nofun, rfl, fun _ => rfl, rfl, fun _ => rfl⟩
  | unary operator operand span =>
    obtain ⟨below, known, rest⟩ := Option.bind_eq_some_iff.mp performed
    cases rest
    obtain rfl := index_of_ref? known
    refine .makes (.unary operator below) span ⟨rfl, ?_, rfl, fun _ => rfl, rfl, fun _ => rfl⟩
    simpa [Content.operands] using known
  | binary operator left right span =>
    obtain ⟨first, knownFirst, rest⟩ := Option.bind_eq_some_iff.mp performed
    obtain ⟨second, knownSecond, rest⟩ := Option.bind_eq_some_iff.mp rest
    cases rest
    obtain rfl := index_of_ref? knownFirst
    obtain rfl := index_of_ref? knownSecond
    refine .makes (.binary operator first second) span ⟨rfl, ?_, rfl, fun _ => rfl, rfl, fun _ => rfl⟩
    simpa [Content.operands] using ⟨knownFirst, knownSecond⟩
  | ternary condition whenTrue whenFalse span =>
    obtain ⟨first, knownFirst, rest⟩ := Option.bind_eq_some_iff.mp performed
    obtain ⟨second, knownSecond, rest⟩ := Option.bind_eq_some_iff.mp rest
    obtain ⟨third, knownThird, rest⟩ := Option.bind_eq_some_iff.mp rest
    cases rest
    obtain rfl := index_of_ref? knownFirst
    obtain rfl := index_of_ref? knownSecond
    obtain rfl := index_of_ref? knownThird
    refine .makes (.ternary first second third) span ⟨rfl, ?_, rfl, fun _ => rfl, rfl, fun _ => rfl⟩
    simpa [Content.operands] using ⟨knownFirst, knownSecond, knownThird⟩
  | setParent node parent =>
    obtain ⟨below, known, rest⟩ := Option.bind_eq_some_iff.mp performed
    obtain ⟨above, knownAbove, rest⟩ := Option.bind_eq_some_iff.mp rest
    cases rest
    obtain rfl := index_of_ref? known
    obtain rfl := index_of_ref? knownAbove
    exact .links _ (lt_size_of_ref? known)
  | look node =>
    obtain ⟨named, known, rest⟩ := Option.bind_eq_some_iff.mp performed
    cases rest
    exact .looks node

theorem ref?_of_lt {g : NodeGraph} {index : Nat} (known : index < g.nodes.size) : ∃ node, g.ref? index = some node := by
  rw [ref?, Array.getElem?_eq_getElem known]
  exact ⟨_, rfl⟩

theorem perform_of_known {g : NodeGraph} {action : Action} (known : ∀ index ∈ action.named, index < g.nodes.size) :
    ∃ done, g.perform action = some done := by
  cases action with
  | error span | number value span => exact ⟨_, rfl⟩
  | unary operator operand span =>
    obtain ⟨below, found⟩ := ref?_of_lt (known operand (by simp [Action.named, Action.operands]))
    simp [perform, found]
  | binary operator left right span =>
    obtain ⟨first, foundFirst⟩ := ref?_of_lt (known left (by simp [Action.named, Action.operands]))
    obtain ⟨second, foundSecond⟩ := ref?_of_lt (known right (by simp [Action.named, Action.operands]))
    simp [perform, foundFirst, foundSecond]
  | ternary condition whenTrue whenFalse span =>
    obtain ⟨first, foundFirst⟩ := ref?_of_lt (known condition (by simp [Action.named, Action.operands]))
    obtain ⟨second, foundSecond⟩ := ref?_of_lt (known whenTrue (by simp [Action.named, Action.operands]))
    obtain ⟨third, foundThird⟩ := ref?_of_lt (known whenFalse (by simp [Action.named, Action.operands]))
    simp [perform, foundFirst, foundSecond, foundThird]
  | setParent node parent =>
    obtain ⟨below, found⟩ := ref?_of_lt (known node (by simp [Action.named]))
    obtain ⟨above, foundAbove⟩ := ref?_of_lt (known parent (by simp [Action.named]))
    simp [perform, found, foundAbove]
  | look node =>
    obtain ⟨named, found⟩ := ref?_of_lt (known node (by simp [Action.named]))
    simp [perform, found]

theorem Builds.older {g : NodeGraph} {action : Action} {content : Content} {span : Span}
    (builds : g.Builds action content span) : ∀ child ∈ content.children, child < g.nodes.size :=
  older_of_known builds.known

namespace Does

variable {g g' : NodeGraph} {action : Action}

theorem size (does : g.Does action g') : g'.nodes.size = g.nodes.size + if action.Makes then 1 else 0 := by
  cases does with
  | makes content span builds =>
    have makes : action.Makes := by
      rw [Action.Makes, builds.shape]
      rfl
    rw [size_add, if_pos makes]
  | links parent known => exact size_link _ _ _
  | looks node => rfl

theorem parentOf (does : g.Does action g') (index : Nat) :
    g'.parentOf index =
      if index ∈ action.linked then some (action.target g.nodes.size) else g.parentOf index := by
  cases does with
  | makes content span builds => rw [parentOf_add builds.older, builds.children, builds.linked, builds.target]
  | links parent known =>
    rw [parentOf_link known]
    simp only [Action.linked, Action.target, List.mem_singleton, eq_comm]
  | looks node => simp [Action.linked, Action.operands]

theorem remains (does : g.Does action g') : g.Remains g' := by
  cases does with
  | makes content span builds => exact g.remains_add _ _
  | links parent known => exact g.remains_link _ _
  | looks node => exact .refl g

theorem wellMade (does : g.Does action g') (well : g.WellMade) : g'.WellMade := by
  cases does with
  | makes content span builds => exact well.add builds.known _
  | links parent known => exact well.link _ _
  | looks node => exact well

end Does

theorem run_induction {motive : List Action → NodeGraph → Prop} (start : motive [] .empty)
    (step : ∀ actions g action g', run actions = some g → motive actions g → g.Does action g' →
      motive (actions ++ [action]) g') {actions : List Action} {g : NodeGraph} (ran : run actions = some g) :
    motive actions g := by
  induction actions using List.reverseRecOn generalizing g with
  | nil =>
    cases ran
    exact start
  | append_singleton actions action ih =>
    obtain ⟨before, node, ranBefore, performed⟩ := run_concat_eq_some_iff.mp ran
    exact step actions before action g ranBefore (ih ranBefore) (does_of_perform performed)

section Run

variable {actions : List Action} {g : NodeGraph} (ran : run actions = some g)

include ran

theorem wellMade_of_run : g.WellMade :=
  run_induction (motive := fun _ g => g.WellMade) .empty (fun _ _ _ _ _ well does => does.wellMade well) ran

theorem size_of_run : g.nodes.size = made actions := by
  refine run_induction (motive := fun actions g => g.nodes.size = made actions) rfl ?_ ran
  intro actions g action g' _ size does
  rw [does.size, made_concat, size]

theorem parentOf_of_run (index parent : Nat) : g.parentOf index = some parent ↔ LastLinked actions index parent := by
  refine run_induction (motive := fun actions g => g.parentOf index = some parent ↔ LastLinked actions index parent)
    ?_ ?_ ran
  · constructor
    · intro link
      cases link
    · rintro ⟨before, action, after, split, _⟩
      exact absurd split.symm (List.append_ne_nil_of_right_ne_nil _ (List.cons_ne_nil _ _))
  · intro actions g action g' ran ih does
    rw [does.parentOf, lastLinked_concat, size_of_run ran]
    split
    · exact Option.some_inj
    · exact ih

theorem unlinked_of_run (index : Nat) : g.parentOf index = none ↔ ∀ action ∈ actions, index ∉ action.linked := by
  refine run_induction
    (motive := fun actions g => g.parentOf index = none ↔ ∀ action ∈ actions, index ∉ action.linked) ?_ ?_ ran
  · simp [NodeGraph.parentOf, NodeGraph.empty]
  · intro actions g action g' _ ih does
    rw [does.parentOf, List.forall_mem_append, ← ih, List.forall_mem_singleton]
    split
    next links => simp [links]
    next untouched => simp [untouched]

end Run

theorem remains_of_runFrom {g g' : NodeGraph} {actions : List Action} (ran : g.runFrom actions = some g') :
    g.Remains g' := by
  induction actions generalizing g with
  | nil =>
    obtain rfl := Option.some.inj ran
    exact .refl g
  | cons action actions ih =>
    obtain ⟨node, next, performed, rest⟩ := runFrom_cons_eq_some_iff.mp ran
    exact (does_of_perform performed).remains.trans (ih rest)

/-- A graph is what its history made it. -/
structure Remembers (actions : List Action) (g : NodeGraph) : Prop where
  size : g.nodes.size = made actions
  linked (index parent : Nat) : g.parentOf index = some parent ↔ LastLinked actions index parent
  unlinked (index : Nat) : g.parentOf index = none ↔ ∀ action ∈ actions, index ∉ action.linked
  kept (before after : List Action) (split : actions = before ++ after) :
    ∃ early, run before = some early ∧ ∀ index < early.nodes.size, g.sight? index = early.sight? index
  built (before : List Action) (action : Action) (after : List Action) (split : actions = before ++ action :: after)
    (makes : action.Makes) : ∃ tree, g.tree? (made before) = some tree ∧ action.tree? g.tree? = some tree ∧
      g.childrenOf (made before) = action.operands
  seen (index : Nat) (made : index < g.nodes.size) : ∃ tree, g.tree? index = some tree ∧
    g.sight? index = some ⟨tree.shape, g.childrenOf index, g.heightOf index, tree.print, tree.describe,
      tree.containsError⟩
  heights (index : Nat) (made : index < g.nodes.size) :
    g.heightOf index = ((g.childrenOf index).map g.heightOf).foldr max 0 + 1
  errors (index : Nat) (tree : Tree) (hangs : g.tree? index = some tree) :
    tree.containsError = true ↔ ∃ below, g.Under index below ∧ g.IsErrorAt below
  ends : WellFounded fun below above => below ∈ g.childrenOf above

theorem exists_of_inOrder {actions : List Action} (inOrder : InOrder actions) : ∃ g, run actions = some g := by
  induction actions using List.reverseRecOn with
  | nil => exact ⟨.empty, rfl⟩
  | append_singleton actions action ih =>
    obtain ⟨earlier, known⟩ := inOrder_of_concat inOrder
    obtain ⟨g, ran⟩ := ih earlier
    rw [← size_of_run ran] at known
    obtain ⟨⟨node, g'⟩, performed⟩ := perform_of_known known
    exact ⟨g', run_concat_eq_some_iff.mpr ⟨g, node, ran, performed⟩⟩

theorem run_append_eq_some_iff {front back : List Action} {g : NodeGraph} :
    run (front ++ back) = some g ↔ ∃ early, run front = some early ∧ early.runFrom back = some g := by
  rw [run, runFrom_append]
  exact Option.bind_eq_some_iff

theorem built_of_run {before after : List Action} {action : Action} {g : NodeGraph}
    (ran : run (before ++ action :: after) = some g) (makes : action.Makes) :
    g.tree? (made before) = action.tree? g.tree? ∧ g.childrenOf (made before) = action.operands := by
  obtain ⟨early, ranEarly, rest⟩ := run_append_eq_some_iff.mp ran
  obtain ⟨node, next, performed, rest⟩ := runFrom_cons_eq_some_iff.mp rest
  cases does_of_perform performed with
  | links parent known => cases makes
  | looks node => cases makes
  | makes content span builds =>
    have found := getElem?_add builds.older span early.nodes.size
    rw [if_pos rfl, size_of_run ranEarly] at found
    obtain ⟨later, foundLater, sameContent, sameSpan⟩ := (remains_of_runFrom rest).node found
    constructor
    · rw [(wellMade_of_run ran).tree?_eq foundLater, sameContent, sameSpan, builds.tree]
    · rw [childrenOf, foundLater, Option.elim_some, sameContent, builds.children]

/-- Nodes may be shared and links may run in circles: all that is seen of a node but its link is what the action that
made it said, and its link is what the last action on it said. -/
theorem history_remembered {actions : List Action} (inOrder : InOrder actions) :
    ∃ g, run actions = some g ∧ Remembers actions g := by
  obtain ⟨g, ran⟩ := exists_of_inOrder inOrder
  have well := wellMade_of_run ran
  refine ⟨g, ran, size_of_run ran, parentOf_of_run ran, unlinked_of_run ran, ?kept, ?built, ?seen, ?heights, ?errors,
    well.wellFounded⟩
  case kept =>
    rintro before after rfl
    obtain ⟨early, ranEarly, rest⟩ := run_append_eq_some_iff.mp ran
    exact ⟨early, ranEarly, fun index old => (remains_of_runFrom rest).sight?_eq old⟩
  case built =>
    rintro before action after rfl makes
    obtain ⟨hangs, children⟩ := built_of_run ran makes
    have recent : made before < g.nodes.size := by
      rw [size_of_run ran]
      simp [made, List.countP_append, makes]
    obtain ⟨tree, found⟩ := well.exists_tree recent
    exact ⟨tree, found, hangs ▸ found, children⟩
  case seen =>
    intro index made
    obtain ⟨tree, hangs⟩ := well.exists_tree made
    exact ⟨tree, hangs, well.sight?_eq (Array.getElem?_eq_getElem made) hangs⟩
  case heights => exact fun index made => well.heightOf_eq made
  case errors => exact fun index tree hangs => well.containsError_iff hangs

def circle : List Action :=
  let span : Span := .point (Position.origin.inText "")
  [.number 7 span, .binary ⟨.plus, "+", span.start⟩ 0 0 span, .error span, .ternary 1 2 1 span, .setParent 3 0]

theorem history_remembered_circle : InOrder circle ∧ ∃ g, run circle = some g ∧ Remembers circle g :=
  ⟨by decide, history_remembered (by decide)⟩

end NodeGraph

end Arith
