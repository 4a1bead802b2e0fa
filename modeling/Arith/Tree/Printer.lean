import Arith.Tree

namespace Arith.Tree

def print : Tree → String
  | error _ => "<error>"
  | number value _ => toString value
  | unary operator operand _ => "(" ++ operator.lexeme ++ " " ++ operand.print ++ ")"
  | binary operator left right _ => "(" ++ operator.lexeme ++ " " ++ left.print ++ " " ++ right.print ++ ")"
  | ternary condition whenTrue whenFalse _ =>
    "(?: " ++ condition.print ++ " " ++ whenTrue.print ++ " " ++ whenFalse.print ++ ")"

/-- Spans are left out, except where there is nothing else to show. -/
def describe : Tree → String
  | error span => "ErrorNode(span=" ++ span.render ++ ")"
  | number value _ => "NumberLiteral(" ++ toString value ++ ")"
  | unary operator operand _ =>
    "UnaryOp(" ++ Text.quoted operator.lexeme ++ ", " ++ operand.describe ++ ")"
  | binary operator left right _ =>
    "BinaryOp(" ++ Text.quoted operator.lexeme ++ ", " ++ left.describe ++ ", " ++ right.describe ++ ")"
  | ternary condition whenTrue whenFalse _ =>
    "TernaryOp(" ++ condition.describe ++ ", " ++ whenTrue.describe ++ ", " ++ whenFalse.describe ++ ")"

def label (t : Tree) : String := t.shape.title ++ "@" ++ t.span.render

end Arith.Tree
