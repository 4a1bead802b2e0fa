import Arith.Token

namespace Arith

inductive Tree where
  | error (span : Span)
  | number (value : Int) (span : Span)
  | unary (operator : Token) (operand : Tree) (span : Span)
  | binary (operator : Token) (left right : Tree) (span : Span)
  | ternary (condition whenTrue whenFalse : Tree) (span : Span)
  deriving DecidableEq, Repr

inductive Tree.Shape where
  | error
  | number
  | unary
  | binary
  | ternary
  deriving DecidableEq, Repr

namespace Tree.Shape

def all : List Shape := [error, number, unary, binary, ternary]

def label : Shape → String
  | error => "ERROR"
  | number => "NUMBER_LITERAL"
  | unary => "UNARY_OP"
  | binary => "BINARY_OP"
  | ternary => "TERNARY_OP"

def title : Shape → String
  | error => "ErrorNode"
  | number => "NumberLiteral"
  | unary => "UnaryOp"
  | binary => "BinaryOp"
  | ternary => "TernaryOp"

end Tree.Shape

namespace Tree

def shape : Tree → Shape
  | error _ => .error
  | number _ _ => .number
  | unary _ _ _ => .unary
  | binary _ _ _ _ => .binary
  | ternary _ _ _ _ => .ternary

def span : Tree → Span
  | error span | number _ span | unary _ _ span | binary _ _ _ span | ternary _ _ _ span => span

def IsError (t : Tree) : Prop := t.shape = .error

instance (t : Tree) : Decidable t.IsError := inferInstanceAs (Decidable (t.shape = .error))

def children : Tree → List Tree
  | error _ | number _ _ => []
  | unary _ operand _ => [operand]
  | binary _ left right _ => [left, right]
  | ternary condition whenTrue whenFalse _ => [condition, whenTrue, whenFalse]

def operator? : Tree → Option Token
  | unary operator _ _ | binary operator _ _ _ => some operator
  | _ => none

def value? : Tree → Option Int
  | number value _ => some value
  | _ => none

/-- The number of levels from the root to the deepest leaf, both counted. -/
def height : Tree → Nat
  | error _ | number _ _ => 1
  | unary _ operand _ => operand.height + 1
  | binary _ left right _ => max left.height right.height + 1
  | ternary condition whenTrue whenFalse _ =>
    max (max condition.height whenTrue.height) whenFalse.height + 1

def size : Tree → Nat
  | error _ | number _ _ => 1
  | unary _ operand _ => operand.size + 1
  | binary _ left right _ => left.size + right.size + 1
  | ternary condition whenTrue whenFalse _ => condition.size + whenTrue.size + whenFalse.size + 1

def containsError : Tree → Bool
  | error _ => true
  | number _ _ => false
  | unary _ operand _ => operand.containsError
  | binary _ left right _ => left.containsError || right.containsError
  | ternary condition whenTrue whenFalse _ =>
    condition.containsError || whenTrue.containsError || whenFalse.containsError

end Tree

end Arith
