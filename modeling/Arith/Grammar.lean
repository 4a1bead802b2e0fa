import Arith.Level
import Arith.Tree
import Mathlib.Data.Nat.Digits.Defs

namespace Arith

/-- The number that the digits of a token write, the last of which counts ones. -/
def Token.value (t : Token) : Nat :=
  Nat.ofDigits 10 (t.lexeme.toList.reverse.map fun c => c.toNat - '0'.toNat)

/-- The token sequences that are expressions of a level, each with the tree it derives. Sums and products group from the
left, conditionals from the right. -/
inductive Phrase : Level → List Token → Tree → Prop where
  | number {t : Token} (kind : t.kind = .number) : Phrase .unary [t] (.number t.value (.point t.location))
  | unary {operator : Token} {tokens : List Token} {operand : Tree}
      (kind : operator.kind = .minus ∨ operator.kind = .bang) (phrase : Phrase .unary tokens operand) :
      Phrase .unary (operator :: tokens) (.unary operator operand ⟨operator.location, operand.span.stop⟩)
  | ofUnary {tokens : List Token} {tree : Tree} (phrase : Phrase .unary tokens tree) : Phrase .product tokens tree
  | product {operator : Token} {front back : List Token} {left right : Tree}
      (kind : operator.kind = .times ∨ operator.kind = .divide) (first : Phrase .product front left)
      (second : Phrase .unary back right) :
      Phrase .product (front ++ operator :: back) (.binary operator left right ⟨left.span.start, right.span.stop⟩)
  | ofProduct {tokens : List Token} {tree : Tree} (phrase : Phrase .product tokens tree) : Phrase .sum tokens tree
  | sum {operator : Token} {front back : List Token} {left right : Tree}
      (kind : operator.kind = .plus ∨ operator.kind = .minus) (first : Phrase .sum front left)
      (second : Phrase .product back right) :
      Phrase .sum (front ++ operator :: back) (.binary operator left right ⟨left.span.start, right.span.stop⟩)
  | ofSum {tokens : List Token} {tree : Tree} (phrase : Phrase .sum tokens tree) : Phrase .conditional tokens tree
  | ternary {question colon : Token} {front middle back : List Token} {condition whenTrue whenFalse : Tree}
      (asks : question.kind = .question) (divides : colon.kind = .colon) (first : Phrase .sum front condition)
      (second : Phrase .conditional middle whenTrue) (third : Phrase .conditional back whenFalse) :
      Phrase .conditional (front ++ question :: (middle ++ colon :: back))
        (.ternary condition whenTrue whenFalse ⟨condition.span.start, whenFalse.span.stop⟩)

end Arith
