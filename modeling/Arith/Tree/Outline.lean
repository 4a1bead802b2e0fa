import Arith.Tree

namespace Arith.Tree

/-- A node in an outline. `parent` is the index of the entry it hangs under; the root has none. -/
structure Entry where
  tree : Tree
  parent : Option Nat
  deriving DecidableEq, Repr

def outlineAt (parent : Option Nat) (index : Nat) : Tree → List Entry
  | t@(error _) | t@(number _ _) => [⟨t, parent⟩]
  | t@(unary _ operand _) => ⟨t, parent⟩ :: operand.outlineAt (some index) (index + 1)
  | t@(binary _ left right _) =>
    ⟨t, parent⟩ :: (left.outlineAt (some index) (index + 1) ++
      right.outlineAt (some index) (index + 1 + left.size))
  | t@(ternary condition whenTrue whenFalse _) =>
    ⟨t, parent⟩ :: (condition.outlineAt (some index) (index + 1) ++
      (whenTrue.outlineAt (some index) (index + 1 + condition.size) ++
        whenFalse.outlineAt (some index) (index + 1 + condition.size + whenTrue.size)))

def outline (t : Tree) : List Entry := t.outlineAt none 0

end Arith.Tree
