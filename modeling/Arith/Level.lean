import Arith.Token

namespace Arith

inductive Level where
  | conditional
  | sum
  | product
  | unary
  deriving DecidableEq, Repr

namespace Level

def all : List Level := [conditional, sum, product, unary]

def toNat : Level → Nat
  | conditional => 0
  | sum => 1
  | product => 2
  | unary => 3

def ofNat? (n : Nat) : Option Level := all.find? (·.toNat = n)

/-- A conditional binds as loosely as a token that joins nothing, and shares its name. -/
def label : Level → String
  | conditional => "NONE"
  | sum => "TERM"
  | product => "FACTOR"
  | unary => "UNARY"

/-- The level of a right operand, one tighter than its operator, so that equal operators group from the left. -/
def tighter : Level → Level
  | conditional => sum
  | sum => product
  | product => unary
  | unary => unary

instance : LE Level := ⟨fun a b => a.toNat ≤ b.toNat⟩

instance (a b : Level) : Decidable (a ≤ b) := inferInstanceAs (Decidable (a.toNat ≤ b.toNat))

end Level

/-- How tightly a token joins the expression on its left to what follows, if it joins them at all. -/
def Token.Kind.binding? : Token.Kind → Option Level
  | .plus | .minus => some .sum
  | .times | .divide => some .product
  | .question => some .conditional
  | _ => none

def Token.Kind.bindings : List (Token.Kind × Level) :=
  all.filterMap fun kind => kind.binding?.map (kind, ·)

end Arith
