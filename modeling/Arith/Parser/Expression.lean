import Arith.Level
import Arith.Parser
import Arith.Text.Decimal
import Arith.Tree

namespace Arith

def Token.literal (t : Token) : Tree := .number (Text.decimalValue t.lexeme.toList) (.point t.location)

namespace Tree

/-- Stands at `token` for an expression that could not be read. -/
def placeholder (token : Token) : Tree := .error (.point token.location)

def apply (operator : Token) (operand : Tree) : Tree :=
  .unary operator operand ⟨operator.location, operand.span.stop⟩

def combine (operator : Token) (left right : Tree) : Tree :=
  .binary operator left right ⟨left.span.start, right.span.stop⟩

def choose (condition whenTrue whenFalse : Tree) : Tree :=
  .ternary condition whenTrue whenFalse ⟨condition.span.start, whenFalse.span.stop⟩

end Tree

namespace Parsing

def readNumber (token : Token) (p : Parsing) : Tree × Parsing :=
  if token.lexeme.length ≤ maxDigits then
    (token.literal, p)
  else (.placeholder token, p.report ⟨.numberTooLarge, token⟩)

abbrev Reader := Level → Parsing → Tree × Parsing

section Operands

variable (operand : Reader)

/-- Passes a token that begins an expression and reads what belongs to it, or is left with nothing. -/
def readFirst (p : Parsing) : Option Tree × Parsing :=
  let token := p.current
  let p := p.advance
  match token.kind with
  | .number =>
    let (tree, p) := p.readNumber token
    (some tree, p)
  | .minus | .bang =>
    let (tree, p) := operand .unary p
    (some (.apply token tree), p)
  | _ => (none, p.report ⟨.expectedExpression, token⟩)

def join (binding : Level) (left : Tree) (p : Parsing) : Tree × Parsing :=
  let operator := p.current
  let p := p.advance
  if binding = .conditional then
    let (whenTrue, p) := operand .conditional p
    let (_, p) := p.consume .colon "Expected ':' after true condition"
    let (whenFalse, p) := operand .conditional p
    (.choose left whenTrue whenFalse, p)
  else
    let (right, p) := operand binding.tighter p
    (.combine operator left right, p)

theorem height_lt_height_join (binding : Level) (left : Tree) (p : Parsing) :
    left.height < (join operand binding left p).1.height := by
  unfold join
  split <;> simp only [Tree.choose, Tree.combine, Tree.height] <;> omega

/-- The level of the current token, if it goes on with an expression of the given level. -/
def continuation? (level : Level) (p : Parsing) : Option Level :=
  if p.nestingExceeded then none else p.current.kind.binding?.filter (level ≤ ·)

/-- Goes on as long as operators bind tightly enough. `room` is how many levels `left` may have. -/
def extend (room : Nat) (level : Level) (left : Tree) (p : Parsing) : Tree × Parsing :=
  match p.continuation? level with
  | none => (left, p)
  | some binding =>
    if room < left.height then (left, p.exceedNesting)
    else
      let joined := join operand binding left p
      extend room level joined.1 joined.2
termination_by room + 1 - left.height
decreasing_by
  have grown := height_lt_height_join operand binding left p
  omega

def readExpression (room : Nat) (level : Level) (p : Parsing) : Tree × Parsing :=
  match readFirst operand p with
  | (none, q) => (.placeholder p.current, q)
  | (some tree, q) => extend operand room level tree q

end Operands

/-- Reads an expression of the given level, with `room` levels of nesting left to it. -/
def parseWithin : (room : Nat) → (level : Level) → Parsing → Tree × Parsing
  | 0, _, p => (.placeholder p.current, p.exceedNesting)
  | room + 1, level, p =>
    if p.nestingExceeded then (.placeholder p.current, p)
    else
      let (tree, p) := readExpression (parseWithin room) room level p.descend
      (tree, p.ascend)

def parse (level : Level) (p : Parsing) : Tree × Parsing := parseWithin (maxNesting - p.depth) level p

def expression (p : Parsing) : Tree × Parsing :=
  let (tree, p) := p.parse .conditional
  let (_, p) := p.consume .endOfInput "Expect end of expression"
  (tree, p)

end Parsing

def parse? (source filename : String) : Except SyntaxError Tree :=
  let (tree, p) := (Parsing.ofSource source filename).expression
  match p.errors[0]? with
  | some error => .error error
  | none => .ok tree

end Arith
