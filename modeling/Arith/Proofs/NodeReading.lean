import Arith.Parser.Nodes
import Arith.Proofs.NodeLinks
import Arith.Proofs.WholeText

namespace Arith

namespace NodeGraph

structure Keeps (g g' : NodeGraph) : Prop where
  size_le : g.nodes.size ≤ g'.nodes.size
  getElem? : ∀ index < g.nodes.size, g'.nodes[index]? = g.nodes[index]?

theorem Keeps.refl (g : NodeGraph) : g.Keeps g := ⟨Nat.le_refl _, fun _ _ => rfl⟩

theorem Keeps.trans {g h i : NodeGraph} (first : g.Keeps h) (second : h.Keeps i) : g.Keeps i where
  size_le := Nat.le_trans first.size_le second.size_le
  getElem? index old :=
    (second.getElem? index (Nat.lt_of_lt_of_le old first.size_le)).trans (first.getElem? index old)

theorem Keeps.remains {g g' : NodeGraph} (keeps : g.Keeps g') : g.Remains g' :=
  ⟨keeps.size_le, fun index old => congrArg _ (keeps.getElem? index old)⟩

/-- A node that was made after the first `start` ones and hangs under nothing, with the tree under it. -/
structure Stands (g : NodeGraph) (start : Nat) (node : Ref) (tree : Tree) : Prop where
  recent : start ≤ node.index
  known : g.ref? node.index = some node
  rootless : g.parentOf node.index = none
  hangs : g.tree? node.index = some tree

section Stands

variable {g g' : NodeGraph} {start : Nat} {node : Ref} {tree : Tree}

theorem Stands.made (stands : g.Stands start node tree) : node.index < g.nodes.size :=
  lt_size_of_ref? stands.known

theorem Stands.mono {earlier : Nat} (stands : g.Stands start node tree) (le : earlier ≤ start) :
    g.Stands earlier node tree := { stands with recent := Nat.le_trans le stands.recent }

theorem Stands.keep (stands : g.Stands start node tree) (keeps : g.Keeps g') : g'.Stands start node tree where
  recent := stands.recent
  known := by rw [keeps.remains.ref?_eq stands.made, stands.known]
  rootless := by rw [parentOf, keeps.getElem? _ stands.made, ← parentOf, stands.rootless]
  hangs := by rw [keeps.remains.tree?_eq stands.made, stands.hangs]

end Stands

section Add

variable {g base : NodeGraph} {content : Content} {span : Span} {tree : Tree}
  (older : ∀ child ∈ content.children, child < g.nodes.size)

include older

theorem Keeps.add (keeps : base.Keeps g) (recent : ∀ child ∈ content.children, base.nodes.size ≤ child) :
    base.Keeps (g.add content span).2 where
  size_le := by
    rw [size_add]
    exact Nat.le_succ_of_le keeps.size_le
  getElem? index old := by
    have untaken : index ∉ content.children := fun child => Nat.not_lt_of_le (recent index child) old
    rw [getElem?_add older, if_neg (Nat.ne_of_lt (Nat.lt_of_lt_of_le old keeps.size_le)), if_neg untaken,
      keeps.getElem? index old]

theorem stands_add (hangs : content.tree? (fun operand => g.tree? operand.index) span = some tree) :
    (g.add content span).2.Stands g.nodes.size (g.add content span).1 tree where
  recent := Nat.le_refl _
  known := ref?_add_self older span
  rootless := by
    have fresh : g.nodes.size ∉ content.children := fun child => Nat.lt_irrefl _ (older _ child)
    rw [index_add, parentOf_add older, if_neg fresh, parentOf, getElem?_size]
    rfl
  hangs := by
    rw [index_add, tree?, getElem?_add older, if_pos rfl, Option.bind_some, ← hangs]
    refine Content.tree?_congr _ fun operand mem => ?_
    have before := older _ (List.mem_map_of_mem mem)
    rw [dif_pos before, (g.remains_add content span).tree?_eq before]

end Add

end NodeGraph

namespace Making

open NodeGraph (Ref Content Keeps)

/-- The parser that made nodes has gone as far as the one that read a tree, and returned a node with that
tree, which hangs under nothing; the nodes of `base` were not touched. -/
structure Made (base : NodeGraph) (made : Ref × Making) (read : Tree × Parsing) : Prop where
  parsing : made.2.toParsing = read.2
  sound : made.2.graph.Sound
  keeps : base.Keeps made.2.graph
  stands : made.2.graph.Stands base.nodes.size made.1 read.1

section Made

variable {base : NodeGraph}

section Make

variable {m : Making} {content : Content} {span : Span} {tree : Tree} (sound : m.graph.Sound)
  (keeps : base.Keeps m.graph)
  (hangs : content.tree? (fun operand => m.graph.tree? operand.index) span = some tree)

include sound keeps hangs

theorem Made.make (operands : ∀ operand ∈ content.operands, ∃ below, m.graph.Stands base.nodes.size operand below)
    (distinct : content.children.Nodup) : Made base (m.make content span) (tree, m.toParsing) := by
  have children : ∀ child ∈ content.children, base.nodes.size ≤ child ∧ child < m.graph.nodes.size ∧
      m.graph.parentOf child = none := by
    intro child mem
    obtain ⟨operand, taken, rfl⟩ := List.mem_map.mp mem
    obtain ⟨_, stands⟩ := operands operand taken
    exact ⟨stands.recent, stands.made, stands.rootless⟩
  have older : ∀ child ∈ content.children, child < m.graph.nodes.size := fun child mem => (children child mem).2.1
  refine ⟨rfl, ?_, ?_, ?_⟩
  · refine sound.add (fun operand taken => ?_) (fun child mem => (children child mem).2.2) distinct span
    obtain ⟨_, stands⟩ := operands operand taken
    exact stands.known
  · exact keeps.add older fun child mem => (children child mem).1
  · exact (NodeGraph.stands_add older hangs).mono keeps.size_le

theorem Made.leaf (leaf : content.operands = []) : Made base (m.make content span) (tree, m.toParsing) := by
  refine .make sound keeps hangs ?_ ?_
  · simp [leaf]
  · simp [Content.children, leaf]

end Make

theorem Made.placeholder {m : Making} (sound : m.graph.Sound) (keeps : base.Keeps m.graph) (token : Token) :
    Made base (m.placeholder token) (.placeholder token, m.toParsing) := .leaf sound keeps rfl rfl

variable {first second third : Ref × Making} {left right last : Tree × Parsing} (here : Made base first left)

include here

theorem Made.height_eq : first.1.height = left.1.height :=
  (here.sound.measure_eq here.stands.known here.stands.hangs).1

theorem Made.span_eq : first.1.span = left.1.span :=
  (here.sound.measure_eq here.stands.known here.stands.hangs).2

theorem Made.act (move : Parsing → Parsing) : Made base (first.1, first.2.act move) (left.1, move left.2) :=
  ⟨congrArg move here.parsing, here.sound, here.keeps, here.stands⟩

theorem Made.apply (operator : Token) :
    Made base (first.2.make (.unary operator first.1) ⟨operator.location, first.1.span.stop⟩)
      (.apply operator left.1, left.2) := by
  rw [← here.parsing, Tree.apply, ← here.span_eq]
  refine .make here.sound here.keeps ?_ ?_ ?_
  · simp only [Content.tree?, here.stands.hangs]
    rfl
  · intro operand mem
    obtain rfl := List.mem_singleton.mp mem
    exact ⟨left.1, here.stands⟩
  · simp [Content.children, Content.operands]

variable (next : Made first.2.graph second right)

include next

theorem Made.lt : first.1.index < second.1.index := Nat.lt_of_lt_of_le here.stands.made next.stands.recent

theorem Made.combine (operator : Token) :
    Made base (second.2.make (.binary operator first.1 second.1) ⟨first.1.span.start, second.1.span.stop⟩)
      (.combine operator left.1 right.1, right.2) := by
  have stands := here.stands.keep next.keeps
  rw [← next.parsing, Tree.combine, ← here.span_eq, ← next.span_eq]
  refine .make next.sound (here.keeps.trans next.keeps) ?_ ?_ ?_
  · simp only [Content.tree?, stands.hangs, next.stands.hangs]
    rfl
  · intro operand mem
    simp only [Content.operands, List.mem_cons, List.not_mem_nil, or_false] at mem
    rcases mem with rfl | rfl
    · exact ⟨left.1, stands⟩
    · exact ⟨right.1, next.stands.mono here.keeps.size_le⟩
  · simp [Content.children, Content.operands, Nat.ne_of_lt (here.lt next)]

theorem Made.choose (final : Made second.2.graph third last) :
    Made base (third.2.make (.ternary first.1 second.1 third.1) ⟨first.1.span.start, third.1.span.stop⟩)
      (.choose left.1 right.1 last.1, last.2) := by
  have ascending := here.lt next
  have onward := next.lt final
  have keeps := here.keeps.trans next.keeps
  have stands := (here.stands.keep next.keeps).keep final.keeps
  have middle := (next.stands.mono here.keeps.size_le).keep final.keeps
  rw [← final.parsing, Tree.choose, ← here.span_eq, ← final.span_eq]
  refine .make final.sound (keeps.trans final.keeps) ?_ ?_ ?_
  · simp only [Content.tree?, stands.hangs, middle.hangs, final.stands.hangs]
    rfl
  · intro operand mem
    simp only [Content.operands, List.mem_cons, List.not_mem_nil, or_false] at mem
    rcases mem with rfl | rfl | rfl
    · exact ⟨left.1, stands⟩
    · exact ⟨right.1, middle⟩
    · exact ⟨last.1, final.stands.mono keeps.size_le⟩
  · simp [Content.children, Content.operands, Nat.ne_of_lt ascending, Nat.ne_of_lt onward,
      Nat.ne_of_lt (Nat.lt_trans ascending onward)]

end Made

theorem readFirst_of_number (operand : Reader) {m : Making} (kind : m.current.kind = .number)
    (short : m.current.lexeme.length ≤ maxDigits) :
    readFirst operand m =
      let made := (m.act Parsing.advance).make (.number (Text.decimalValue m.current.lexeme.toList))
        (.point m.current.location)
      (some made.1, made.2) := by
  simp [readFirst, readNumber, kind, short]

theorem readFirst_of_long (operand : Reader) {m : Making} (kind : m.current.kind = .number)
    (long : maxDigits < m.current.lexeme.length) :
    readFirst operand m =
      let refused := (m.act Parsing.advance).act (·.report ⟨.numberTooLarge, m.current⟩)
      let made := refused.placeholder m.current
      (some made.1, made.2) := by
  simp [readFirst, readNumber, kind, Nat.not_le_of_lt long]

theorem readFirst_of_sign (operand : Reader) {m : Making}
    (kind : m.current.kind = .minus ∨ m.current.kind = .bang) :
    readFirst operand m =
      let below := operand .unary (m.act Parsing.advance)
      let made := below.2.make (.unary m.current below.1) ⟨m.current.location, below.1.span.stop⟩
      (some made.1, made.2) := by
  rcases kind with kind | kind <;> simp [readFirst, kind]

theorem readFirst_of_foreign (operand : Reader) {m : Making} (foreign : m.current.kind.begins = false) :
    readFirst operand m =
      (none, (m.act Parsing.advance).act (·.report ⟨.expectedExpression, m.current⟩)) := by
  unfold readFirst
  cases kind : m.current.kind with
  | number | minus | bang =>
    rw [kind] at foreign
    cases foreign
  | _ => simp [kind]

theorem join_conditional (operand : Reader) (left : Ref) (m : Making) :
    join operand .conditional left m =
      let second := operand .conditional (m.act Parsing.advance)
      let divided := second.2.act fun p => (p.consume .colon Parsing.dividerMessage).2
      let third := operand .conditional divided
      third.2.make (.ternary left second.1 third.1) ⟨left.span.start, third.1.span.stop⟩ := rfl

theorem join_of_ne (operand : Reader) {binding : Level} (left : Ref) (m : Making)
    (tight : binding ≠ .conditional) :
    join operand binding left m =
      let right := operand binding.tighter (m.act Parsing.advance)
      right.2.make (.binary m.current left right.1) ⟨left.span.start, right.1.span.stop⟩ := by
  rw [join, if_neg tight]

section Operands

variable {operand : Reader} {operandTree : Parsing.Reader}
variable (inner : ∀ level (m : Making), m.graph.Sound → Made m.graph (operand level m) (operandTree level m.toParsing))

include inner

theorem Made.next {base : NodeGraph} {made : Ref × Making} {read : Tree × Parsing} (here : Made base made read)
    (level : Level) : Made made.2.graph (operand level made.2) (operandTree level read.2) :=
  here.parsing ▸ inner level made.2 here.sound

theorem made_join {base : NodeGraph} {left : Ref} {m : Making} {tree : Tree} {p : Parsing}
    (here : Made base (left, m) (tree, p)) (binding : Level) :
    Made base (join operand binding left m) (Parsing.join operandTree binding tree p) := by
  obtain rfl : m.toParsing = p := here.parsing
  have passed := here.act Parsing.advance
  by_cases loose : binding = .conditional
  · subst loose
    have second := passed.next inner .conditional
    have divided := second.act fun p => (p.consume .colon Parsing.dividerMessage).2
    rw [join_conditional, Parsing.join_conditional]
    exact passed.choose second (divided.next inner .conditional)
  · rw [join_of_ne _ _ _ loose, Parsing.join_of_ne _ _ _ loose]
    exact passed.combine (passed.next inner binding.tighter) m.current

theorem made_extend {base : NodeGraph} {left : Ref} {m : Making} {tree : Tree} {p : Parsing}
    (here : Made base (left, m) (tree, p)) (room : Nat) (level : Level) :
    Made base (extend operand room level left m) (Parsing.extend operandTree room level tree p) := by
  obtain rfl : m.toParsing = p := here.parsing
  -- the height decides whether the limit is met, and the node has that of its tree
  have height : left.height = tree.height := here.height_eq
  fun_induction extend operand room level left m generalizing tree with
  | case1 left m stops =>
    rw [Parsing.extend_of_stop operandTree room tree stops]
    exact here
  | case2 left m binding next deep =>
    rw [Parsing.extend_of_deep operandTree next (height ▸ deep)]
    have dropped := Made.placeholder (here.act Parsing.exceedNesting).sound (.refl _) m.current
    exact ⟨rfl, dropped.sound, here.keeps.trans dropped.keeps, here.stands.keep dropped.keeps⟩
  | case3 left m binding next shallow _ =>
    rename_i ih
    rw [Parsing.extend_of_shallow operandTree next (height ▸ Nat.le_of_not_lt shallow)]
    have joined := made_join inner here binding
    rw [← joined.parsing]
    exact ih ⟨rfl, joined.sound, joined.keeps, joined.stands⟩ joined.height_eq

theorem made_readExpression (room : Nat) (level : Level) (m : Making) (sound : m.graph.Sound) :
    Made m.graph (readExpression operand room level m)
      (Parsing.readExpression operandTree room level m.toParsing) := by
  have passed : (m.act Parsing.advance).graph.Sound := sound
  have refused (cause : SyntaxError.Cause) :
      ((m.act Parsing.advance).act (·.report ⟨cause, m.current⟩)).graph.Sound := sound
  unfold readExpression Parsing.readExpression
  rcases Parsing.readFirst_cases operandTree m.toParsing with
    ⟨kind, short, same⟩ | ⟨kind, long, same⟩ | ⟨kind, same⟩ | ⟨foreign, same⟩ <;>
    rw [same]
  · rw [readFirst_of_number operand kind short]
    exact made_extend inner (.leaf passed (.refl _) rfl rfl) room level
  · rw [readFirst_of_long operand kind long]
    exact made_extend inner (.placeholder (refused .numberTooLarge) (.refl _) m.current) room level
  · rw [readFirst_of_sign operand kind]
    exact made_extend inner ((inner .unary _ passed).apply m.current) room level
  · rw [readFirst_of_foreign operand foreign]
    exact .placeholder (refused .expectedExpression) (.refl _) m.current

end Operands

theorem made_exceedNesting (m : Making) (sound : m.graph.Sound) :
    Made m.graph m.exceedNesting (.placeholder m.current, m.toParsing.exceedNesting) :=
  .placeholder (m := m.act Parsing.exceedNesting) sound (.refl _) m.current

theorem made_parseWithin (room : Nat) (level : Level) (m : Making) (sound : m.graph.Sound) :
    Made m.graph (parseWithin room level m) (Parsing.parseWithin room level m.toParsing) := by
  induction room generalizing level m with
  | zero => exact made_exceedNesting m sound
  | succ room ih =>
    cases exceeded : m.nestingExceeded with
    | true =>
      have stopped := made_exceedNesting m sound
      rw [Parsing.exceedNesting_of_exceeded exceeded] at stopped
      rw [Parsing.parseWithin_of_exceeded exceeded, parseWithin, if_pos exceeded]
      exact stopped
    | false =>
      rw [Parsing.parseWithin_succ exceeded, parseWithin, if_neg (by simp [exceeded])]
      exact (made_readExpression ih room level (m.act Parsing.descend) sound).act Parsing.ascend

theorem made_expression (m : Making) (sound : m.graph.Sound) :
    Made m.graph m.expression m.toParsing.expression := by
  rw [Parsing.expression_eq]
  exact (made_parseWithin _ .conditional m sound).act fun p => (p.consume .endOfInput Parsing.trailingMessage).2

end Making

/-- The nodes under the one that is returned for a text, valid or not, form the tree that is read from it. -/
theorem expression_isTree (source filename : String) :
    let made := (Making.ofSource source filename).expression
    let read := (Parsing.ofSource source filename).expression
    made.2.toParsing = read.2 ∧ made.2.graph.tree? made.1.index = some read.1 ∧
      made.2.graph.IsTree made.1.index := by
  have made := Making.made_expression (.ofSource source filename) .empty
  exact ⟨made.parsing, made.stands.hangs, made.sound.isTree made.stands.made made.stands.rootless⟩

end Arith
