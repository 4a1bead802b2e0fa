import Arith.Proofs.ReadingCourse
import Arith.Proofs.TreePlaces
import Arith.Tree.Printer

namespace Arith

namespace Tree

def IsUnjoined : Tree → Prop
  | error _ | number _ _ | unary _ _ _ => True
  | binary _ _ _ _ | ternary _ _ _ _ => False

def FitsRight (binding : Level) : Tree → Prop
  | error _ | number _ _ | unary _ _ _ => True
  | binary operator _ _ _ => ∃ inner, operator.kind.binding? = some inner ∧ ¬ inner ≤ binding
  | ternary _ _ _ _ => False

def FitsLeft (binding : Level) : Tree → Prop
  | error _ | number _ _ | unary _ _ _ => True
  | binary operator _ right _ => (∃ inner, operator.kind.binding? = some inner ∧ binding ≤ inner) ∨ right.IsError
  | ternary _ _ whenFalse _ => whenFalse.IsError

/-- The operator of the node is one of its shape, and its operands fit. -/
def Grouped : Tree → Prop
  | error _ | number _ _ => True
  | unary operator operand _ => (operator.kind = .minus ∨ operator.kind = .bang) ∧ operand.IsUnjoined
  | binary operator left right _ =>
    operator.kind ∈ [.plus, .minus, .times, .divide] ∧
      ∃ binding, operator.kind.binding? = some binding ∧ left.FitsLeft binding ∧ right.FitsRight binding
  | ternary condition _ _ _ => condition.FitsLeft .conditional

def BindsAt (level : Level) : Tree → Prop
  | error _ | number _ _ | unary _ _ _ => True
  | binary operator _ _ _ => ∃ binding, operator.kind.binding? = some binding ∧ level ≤ binding
  | ternary _ _ _ _ => level = .conditional

theorem BindsAt.isUnjoined {t : Tree} (binds : t.BindsAt .unary) : t.IsUnjoined := by
  cases t with
  | error | number | unary => trivial
  | binary operator left right span =>
    obtain ⟨binding, found, tight⟩ := binds
    exact Token.Kind.not_continues_unary _ ⟨binding, found, tight⟩
  | ternary => cases binds

theorem BindsAt.fitsRight {binding : Level} {t : Tree} (tight : binding = .sum ∨ binding = .product)
    (binds : t.BindsAt binding.tighter) : t.FitsRight binding := by
  cases t with
  | error | number | unary => trivial
  | binary operator left right span =>
    obtain ⟨inner, found, above⟩ := binds
    refine ⟨inner, found, fun below => ?_⟩
    have same := Level.le_trans above below
    rcases tight with rfl | rfl <;> exact absurd same (by decide)
  | ternary => rcases tight with rfl | rfl <;> cases binds

structure GroupedAt (level : Level) (t : Tree) : Prop where
  nodes : ∀ node ∈ t.nodes, node.Grouped
  root : t.BindsAt level

namespace GroupedAt

variable {level binding : Level} {operator token : Token} {left right condition whenTrue whenFalse : Tree}

theorem literal : token.literal.GroupedAt level := ⟨List.forall_mem_singleton.mpr trivial, trivial⟩

theorem placeholder : (placeholder token).GroupedAt level := ⟨List.forall_mem_singleton.mpr trivial, trivial⟩

theorem apply (kind : operator.kind = .minus ∨ operator.kind = .bang) (operand : right.GroupedAt .unary) :
    (apply operator right).GroupedAt level :=
  ⟨List.forall_mem_cons.mpr ⟨⟨kind, operand.root.isUnjoined⟩, operand.nodes⟩, trivial⟩

theorem combine (binds : operator.kind.binding? = some binding) (tight : binding ≠ .conditional)
    (above : level ≤ binding) (first : left.GroupedAt level) (fits : left.FitsLeft binding)
    (second : right.GroupedAt binding.tighter) : (combine operator left right).GroupedAt level := by
  have joins : operator.kind ∈ [.plus, .minus, .times, .divide] := by
    revert tight
    cases kind : operator.kind <;> rw [kind] at binds <;> cases binds <;> decide
  have level := (Token.Kind.ne_conditional_iff_of_binding binds).mp tight
  exact ⟨List.forall_mem_cons.mpr ⟨⟨joins, binding, binds, fits, second.root.fitsRight level⟩,
    List.forall_mem_append.mpr ⟨first.nodes, second.nodes⟩⟩, binding, binds, above⟩

theorem choose (loosest : level = .conditional) (first : condition.GroupedAt level)
    (fits : condition.FitsLeft .conditional) (second : whenTrue.GroupedAt .conditional)
    (third : whenFalse.GroupedAt .conditional) : (choose condition whenTrue whenFalse).GroupedAt level :=
  ⟨List.forall_mem_cons.mpr ⟨fits, List.forall_mem_append.mpr
    ⟨first.nodes, List.forall_mem_append.mpr ⟨second.nodes, third.nodes⟩⟩⟩, loosest⟩

end GroupedAt

end Tree

namespace Parsing

/-- What has been read is grouped, and fits on the left of the operator that goes on with it. -/
def Stage.Grouped (level : Level) (p : Parsing) : Stage → Prop
  | before | inside => True
  | behind left => left.GroupedAt level ∧ ∀ binding, p.continuation? level = some binding → left.FitsLeft binding

/-- The operator behind an operation binds no tighter than the operation, or the last operand is missing. -/
theorem Course.loosens {stage : Stage} {level loose binding : Level} {p q : Parsing} {tree : Tree}
    (course : Course stage level p tree q) (next : q.continuation? loose = some binding) :
    ¬ level ≤ binding ∨ tree.IsError := by
  rcases course.ends with exceeded | closed | ⟨_, missing⟩
  · exact absurd exceeded (ne_true_of_eq_false (running_of_continuation next))
  · exact .inl fun above => closed ⟨binding, binding_of_continuation next, above⟩
  · exact .inr missing

theorem Course.grouped {stage : Stage} {level : Level} {p q : Parsing} {tree : Tree}
    (course : Course stage level p tree q) (begun : stage.Grouped level p) : tree.GroupedAt level := by
  induction course with
  | stopped | full | foreign => exact .placeholder
  | enter _ _ ih => exact ih trivial
  | number _ _ _ _ ih => exact ih ⟨.literal, fun _ _ => trivial⟩
  | tooLarge _ _ _ _ ih => exact ih ⟨.placeholder, fun _ _ => trivial⟩
  | sign _ kind _ _ inner onward => exact onward ⟨.apply kind (inner trivial), fun _ _ => trivial⟩
  | stop | deep => exact begun.1
  | @binary level binding p q r left right tree next tight operand _ inner onward =>
    obtain ⟨_, binds, above⟩ := (continuation?_eq_some_iff _ _ _).mp next
    refine onward ⟨.combine binds tight above begun.1 (begun.2 _ next) (inner trivial), fun later follows => ?_⟩
    refine (operand.loosens follows).imp (fun looser => ⟨binding, binds, ?_⟩) id
    exact Level.le_of_not_tighter_le looser
  | @ternary level p q r s left whenTrue whenFalse tree next _ third _ second last onward =>
    obtain ⟨_, _, below⟩ := (continuation?_eq_some_iff _ _ _).mp next
    have loosest := Level.eq_conditional_of_le below
    refine onward ⟨.choose loosest begun.1 (begun.2 _ next) (second trivial) (last trivial), fun later follows => ?_⟩
    exact (third.loosens follows).resolve_left (not_not_intro (Level.conditional_le later))

end Parsing

/-- The operators of every tree that is read group by how tightly they bind, as far as no operand is missing. -/
theorem operators_group (source filename : String) :
    ∀ node ∈ (Parsing.ofSource source filename).expression.1.nodes, node.Grouped := by
  have read := Parsing.course_parse .conditional (.ofSource source filename)
  exact (read.grouped trivial).nodes

theorem operators_group_missing_operand :
    let tree := (Parsing.ofSource "1 + * * 2" "").expression.1
    tree.print = "(* (+ 1 <error>) 2)" ∧ tree.Grouped :=
  ⟨by decide +kernel, operators_group "1 + * * 2" "" _ (Tree.self_mem_nodes _)⟩

end Arith
