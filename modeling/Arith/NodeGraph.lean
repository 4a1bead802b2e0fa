import Arith.Tree

namespace Arith

namespace NodeGraph

/-- A node as those who hold it see it: which one it is, and what never changes about it. -/
structure Ref where
  index : Nat
  span : Span
  height : Nat
  deriving DecidableEq, Repr

inductive Content where
  | error
  | number (value : Int)
  | unary (operator : Token) (operand : Ref)
  | binary (operator : Token) (left right : Ref)
  | ternary (condition whenTrue whenFalse : Ref)
  deriving DecidableEq, Repr

namespace Content

def operands : Content → List Ref
  | error | number _ => []
  | unary _ operand => [operand]
  | binary _ left right => [left, right]
  | ternary condition whenTrue whenFalse => [condition, whenTrue, whenFalse]

def children (content : Content) : List Nat := content.operands.map (·.index)

def height : Content → Nat
  | error | number _ => 1
  | unary _ operand => operand.height + 1
  | binary _ left right => max left.height right.height + 1
  | ternary condition whenTrue whenFalse =>
    max (max condition.height whenTrue.height) whenFalse.height + 1

def tree? (hanging : Ref → Option Tree) (span : Span) : Content → Option Tree
  | error => some (.error span)
  | number value => some (.number value span)
  | unary operator operand => return .unary operator (← hanging operand) span
  | binary operator left right => return .binary operator (← hanging left) (← hanging right) span
  | ternary condition whenTrue whenFalse =>
    return .ternary (← hanging condition) (← hanging whenTrue) (← hanging whenFalse) span

end Content

/-- The height is set when the node is made. `parent` is what the link points to, if it was ever set. -/
structure Node where
  content : Content
  span : Span
  height : Nat
  parent : Option Nat
  deriving DecidableEq, Repr

end NodeGraph

/-- The nodes, numbered in the order in which they were made. One may be an operand of several others, or twice of the
same. -/
structure NodeGraph where
  nodes : Array NodeGraph.Node
  deriving DecidableEq, Repr

namespace NodeGraph

def empty : NodeGraph := ⟨#[]⟩

def ref? (g : NodeGraph) (index : Nat) : Option Ref :=
  g.nodes[index]?.map fun node => ⟨index, node.span, node.height⟩

def parentOf (g : NodeGraph) (index : Nat) : Option Nat := g.nodes[index]?.bind (·.parent)

def childrenOf (g : NodeGraph) (index : Nat) : List Nat :=
  g.nodes[index]?.elim [] (·.content.children)

def heightOf (g : NodeGraph) (index : Nat) : Nat := g.nodes[index]?.elim 0 (·.height)

def tree? (g : NodeGraph) (index : Nat) : Option Tree :=
  g.nodes[index]?.bind fun node =>
    node.content.tree?
      (fun operand => if _older : operand.index < index then g.tree? operand.index else none) node.span
termination_by index

def link (g : NodeGraph) (index parent : Nat) : NodeGraph :=
  ⟨g.nodes.modify index fun node => { node with parent := some parent }⟩

def add (g : NodeGraph) (content : Content) (span : Span) : Ref × NodeGraph :=
  let made : Ref := ⟨g.nodes.size, span, content.height⟩
  (made, content.children.foldl (·.link · made.index) ⟨g.nodes.push ⟨content, span, made.height, none⟩⟩)

inductive Action where
  | error (span : Span)
  | number (value : Int) (span : Span)
  | unary (operator : Token) (operand : Nat) (span : Span)
  | binary (operator : Token) (left right : Nat) (span : Span)
  | ternary (condition whenTrue whenFalse : Nat) (span : Span)
  | setParent (node parent : Nat)
  | look (node : Nat)
  deriving DecidableEq, Repr

/-- Carries out an action; the result names the node that was made or named. An action that names a node
which was never made has no result. -/
def perform (g : NodeGraph) : Action → Option (Ref × NodeGraph)
  | .error span => some (g.add .error span)
  | .number value span => some (g.add (.number value) span)
  | .unary operator operand span => do
    let operand ← g.ref? operand
    return g.add (.unary operator operand) span
  | .binary operator left right span => do
    let left ← g.ref? left
    let right ← g.ref? right
    return g.add (.binary operator left right) span
  | .ternary condition whenTrue whenFalse span => do
    let condition ← g.ref? condition
    let whenTrue ← g.ref? whenTrue
    let whenFalse ← g.ref? whenFalse
    return g.add (.ternary condition whenTrue whenFalse) span
  | .setParent node parent => do
    let named ← g.ref? node
    let above ← g.ref? parent
    return (named, g.link named.index above.index)
  | .look node => do
    let named ← g.ref? node
    return (named, g)

end NodeGraph

end Arith
