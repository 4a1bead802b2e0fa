import Arith.Location

namespace Arith

inductive Token.Kind where
  | endOfInput
  | invalid
  | number
  | plus
  | minus
  | times
  | divide
  | bang
  | question
  | colon
  deriving DecidableEq, Repr

namespace Token.Kind

def all : List Kind :=
  [endOfInput, invalid, number, plus, minus, times, divide, bang, question, colon]

def label : Kind → String
  | endOfInput => "EOF"
  | invalid => "ERROR"
  | number => "NUMBER"
  | plus => "PLUS"
  | minus => "MINUS"
  | times => "MULTIPLY"
  | divide => "DIVIDE"
  | bang => "LOGICAL_NOT"
  | question => "QUESTION"
  | colon => "COLON"

def ordinal (k : Kind) : Nat := all.idxOf k + 1

def ofLabel? (label : String) : Option Kind := all.find? (·.label = label)

end Token.Kind

/-- The lexeme is the text read, except that the end of input has none and an invalid token holds the
message to report. -/
structure Token where
  kind : Token.Kind
  lexeme : String
  location : Location
  deriving DecidableEq, Repr

namespace Token

def operators : List (Char × Kind) :=
  [('+', .plus), ('-', .minus), ('*', .times), ('/', .divide), ('!', .bang), ('?', .question),
    (':', .colon)]

def Kind.ofOperator? (c : Char) : Option Kind := operators.lookup c

theorem Kind.mem_operators {c : Char} {kind : Kind} (found : Kind.ofOperator? c = some kind) :
    (c, kind) ∈ operators := by
  obtain ⟨before, behind, split, _⟩ := List.lookup_eq_some_iff.mp found
  rw [split]
  exact List.mem_append_right before List.mem_cons_self

theorem Kind.ne_special {c : Char} {kind : Kind} (found : Kind.ofOperator? c = some kind) :
    kind ≠ .endOfInput ∧ kind ≠ .invalid ∧ kind ≠ .number := by
  have special : ∀ entry ∈ operators,
      entry.2 ≠ .endOfInput ∧ entry.2 ≠ .invalid ∧ entry.2 ≠ .number := by decide
  exact special _ (mem_operators found)

def IsLiteral (t : Token) : Prop := t.kind = .number

instance (t : Token) : Decidable t.IsLiteral := inferInstanceAs (Decidable (t.kind = .number))

def IsOperator (t : Token) : Prop := t.kind ∈ operators.map (·.2)

instance (t : Token) : Decidable t.IsOperator :=
  inferInstanceAs (Decidable (t.kind ∈ operators.map (·.2)))

def render (t : Token) : String := t.kind.label ++ "(" ++ Text.quoted t.lexeme ++ ")"

def describe (t : Token) : String :=
  "Token(" ++ t.kind.label ++ ", " ++ Text.quoted t.lexeme ++ ", " ++ t.location.describe ++ ")"

end Token

end Arith
