import Arith.NodeGraph
import Arith.Parser.Expression

namespace Arith

/-- A parser at work, with the nodes that it has made. -/
structure Making extends Parsing where
  graph : NodeGraph
  deriving DecidableEq, Repr

namespace Making

open NodeGraph (Ref Content)

def ofSource (source filename : String) : Making := ⟨.ofSource source filename, .empty⟩

def act (m : Making) (move : Parsing → Parsing) : Making := { m with toParsing := move m.toParsing }

def make (content : Content) (span : Span) (m : Making) : Ref × Making :=
  let (node, graph) := m.graph.add content span
  (node, { m with graph })

def placeholder (token : Token) (m : Making) : Ref × Making := m.make .error (.point token.location)

def exceedNesting (m : Making) : Ref × Making := (m.act Parsing.exceedNesting).placeholder m.current

def readNumber (token : Token) (m : Making) : Ref × Making :=
  if token.lexeme.length ≤ maxDigits then
    m.make (.number (Text.decimalValue token.lexeme.toList)) (.point token.location)
  else (m.act (·.report ⟨.numberTooLarge, token⟩)).placeholder token

abbrev Reader := Level → Making → Ref × Making

section Operands

variable (operand : Reader)

def readFirst (m : Making) : Option Ref × Making :=
  let token := m.current
  let m := m.act Parsing.advance
  match token.kind with
  | .number =>
    let (node, m) := m.readNumber token
    (some node, m)
  | .minus | .bang =>
    let (below, m) := operand .unary m
    let (node, m) := m.make (.unary token below) ⟨token.location, below.span.stop⟩
    (some node, m)
  | _ => (none, m.act (·.report ⟨.expectedExpression, token⟩))

def join (binding : Level) (left : Ref) (m : Making) : Ref × Making :=
  let operator := m.current
  let m := m.act Parsing.advance
  if binding = .conditional then
    let (whenTrue, m) := operand .conditional m
    let m := m.act fun p => (p.consume .colon "Expected ':' after true condition").2
    let (whenFalse, m) := operand .conditional m
    m.make (.ternary left whenTrue whenFalse) ⟨left.span.start, whenFalse.span.stop⟩
  else
    let (right, m) := operand binding.tighter m
    m.make (.binary operator left right) ⟨left.span.start, right.span.stop⟩

theorem height_lt_height_join (binding : Level) (left : Ref) (m : Making) :
    left.height < (join operand binding left m).1.height := by
  unfold join
  split <;> simp only [make, NodeGraph.add, Content.height] <;> omega

def extend (room : Nat) (level : Level) (left : Ref) (m : Making) : Ref × Making :=
  match m.continuation? level with
  | none => (left, m)
  | some binding =>
    if room < left.height then (left, m.exceedNesting.2)
    else
      let joined := join operand binding left m
      extend room level joined.1 joined.2
termination_by room + 1 - left.height
decreasing_by
  have grown := height_lt_height_join operand binding left m
  omega

def readExpression (room : Nat) (level : Level) (m : Making) : Ref × Making :=
  match readFirst operand m with
  | (none, n) => n.placeholder m.current
  | (some node, n) => extend operand room level node n

end Operands

def parseWithin : (room : Nat) → (level : Level) → Making → Ref × Making
  | 0, _, m => m.exceedNesting
  | room + 1, level, m =>
    if m.nestingExceeded then m.exceedNesting
    else
      let (node, m) := readExpression (parseWithin room) room level (m.act Parsing.descend)
      (node, m.act Parsing.ascend)

def parse (level : Level) (m : Making) : Ref × Making := parseWithin (maxNesting - m.depth) level m

def expression (m : Making) : Ref × Making :=
  let (root, m) := m.parse .conditional
  (root, m.act fun p => (p.consume .endOfInput "Expect end of expression").2)

end Making

end Arith
