import Arith.Proofs.ParserTurns
import Arith.Proofs.WholeText

namespace Arith

def Token.relocate (place : Location → Location) (t : Token) : Token := { t with location := place t.location }

def Span.relocate (place : Location → Location) (s : Span) : Span := ⟨place s.start, place s.stop⟩

namespace Tree

/-- The tree with its nodes and its operators at other places. -/
def relocate (place : Location → Location) : Tree → Tree
  | error span => .error (span.relocate place)
  | number value span => .number value (span.relocate place)
  | unary operator operand span => .unary (operator.relocate place) (operand.relocate place) (span.relocate place)
  | binary operator left right span =>
    .binary (operator.relocate place) (left.relocate place) (right.relocate place) (span.relocate place)
  | ternary condition whenTrue whenFalse span =>
    .ternary (condition.relocate place) (whenTrue.relocate place) (whenFalse.relocate place) (span.relocate place)

theorem relocate_id (t : Tree) : t.relocate id = t := by
  induction t with
  | error | number => rfl
  | unary operator operand span ih => rw [relocate, ih]; rfl
  | binary operator left right span ihl ihr => rw [relocate, ihl, ihr]; rfl
  | ternary condition whenTrue whenFalse span ihc iht ihf => rw [relocate, ihc, iht, ihf]; rfl

variable (place : Location → Location)

@[simp] theorem height_relocate (t : Tree) : (t.relocate place).height = t.height := by
  induction t <;> simp [relocate, height, *]

theorem span_relocate (t : Tree) : (t.relocate place).span = t.span.relocate place := by cases t <;> rfl

theorem relocate_literal (t : Token) : t.literal.relocate place = (t.relocate place).literal := rfl

theorem relocate_placeholder (t : Token) : (placeholder t).relocate place = placeholder (t.relocate place) := rfl

theorem relocate_apply (operator : Token) (operand : Tree) :
    (apply operator operand).relocate place = apply (operator.relocate place) (operand.relocate place) := by
  simp only [apply, relocate, span_relocate]
  rfl

theorem relocate_combine (operator : Token) (left right : Tree) :
    (combine operator left right).relocate place =
      combine (operator.relocate place) (left.relocate place) (right.relocate place) := by
  simp only [combine, relocate, span_relocate]
  rfl

theorem relocate_choose (condition whenTrue whenFalse : Tree) :
    (choose condition whenTrue whenFalse).relocate place =
      choose (condition.relocate place) (whenTrue.relocate place) (whenFalse.relocate place) := by
  simp only [choose, relocate, span_relocate]
  rfl

end Tree

namespace Parsing

/-- Parsers that are joined see the same token, have the same room left, and are still joined after every move. -/
structure InStep (place : Location → Location) (joined : Parsing → Parsing → Prop) : Prop where
  current {p q : Parsing} (both : joined p q) : p.current.relocate place = q.current.relocate place
  nestingExceeded {p q : Parsing} (both : joined p q) : p.nestingExceeded = q.nestingExceeded
  depth {p q : Parsing} (both : joined p q) : p.depth = q.depth
  advance {p q : Parsing} (both : joined p q) : joined p.advance q.advance
  refuse {p q : Parsing} {cause : SyntaxError.Cause} (both : joined p q) (refused : Refused p.current cause) :
    joined (p.advance.report ⟨cause, p.current⟩) (q.advance.report ⟨cause, q.current⟩)
  consume {p q : Parsing} (expected : Token.Kind) (message : String) (both : joined p q) :
    joined (p.consume expected message).2 (q.consume expected message).2
  exceed {p q : Parsing} (both : joined p q) : joined p.exceedNesting q.exceedNesting
  descend {p q : Parsing} (both : joined p q) : joined p.descend q.descend
  ascend {p q : Parsing} (both : joined p q) : joined p.ascend q.ascend

/-- The same of parsers of which the first is still `live`. One that is live has been so from the start. -/
structure InStepWhile (live : Parsing → Prop) (place : Location → Location) (joined : Parsing → Parsing → Prop) :
    Prop where
  earlier {p q : Parsing} (turns : Turns p q) (on : live q) : live p
  current {p q : Parsing} (both : joined p q) : p.current.relocate place = q.current.relocate place
  nestingExceeded {p q : Parsing} (both : joined p q) : p.nestingExceeded = q.nestingExceeded
  depth {p q : Parsing} (both : joined p q) : p.depth = q.depth
  advance {p q : Parsing} (both : joined p q) (on : live p.advance) : joined p.advance q.advance
  refuse {p q : Parsing} {cause : SyntaxError.Cause} (both : joined p q) (refused : Refused p.current cause)
    (on : live (p.advance.report ⟨cause, p.current⟩)) :
    joined (p.advance.report ⟨cause, p.current⟩) (q.advance.report ⟨cause, q.current⟩)
  consume {p q : Parsing} (expected : Token.Kind) (message : String) (both : joined p q)
    (on : live (p.consume expected message).2) : joined (p.consume expected message).2 (q.consume expected message).2
  exceed {p q : Parsing} (both : joined p q) (on : live p.exceedNesting) : joined p.exceedNesting q.exceedNesting
  descend {p q : Parsing} (both : joined p q) (on : live p.descend) : joined p.descend q.descend
  ascend {p q : Parsing} (both : joined p q) (on : live p.ascend) : joined p.ascend q.ascend

theorem InStep.always {place : Location → Location} {joined : Parsing → Parsing → Prop} (step : InStep place joined) :
    InStepWhile (fun _ => True) place joined where
  earlier _ _ := trivial
  current := step.current
  nestingExceeded := step.nestingExceeded
  depth := step.depth
  advance both _ := step.advance both
  refuse both refused _ := step.refuse both refused
  consume expected message both _ := step.consume expected message both
  exceed both _ := step.exceed both
  descend both _ := step.descend both
  ascend both _ := step.ascend both

theorem consume_cases_both (expected : Token.Kind) (message : String) {p q : Parsing}
    (kind : p.current.kind = q.current.kind) (flag : p.nestingExceeded = q.nestingExceeded) :
    ((p.consume expected message).2 = p ∧ (q.consume expected message).2 = q) ∨
      ((p.consume expected message).2 = { p with panicking := false }.advance ∧
        (q.consume expected message).2 = { q with panicking := false }.advance) ∨
      ((p.consume expected message).2 = p.report ⟨.missing expected message, p.current⟩ ∧
        (q.consume expected message).2 = q.report ⟨.missing expected message, q.current⟩) := by
  rcases consume_cases expected message p with ⟨exceeded, same⟩ | ⟨running, found, same⟩ | ⟨running, missing, same⟩ <;>
    rw [same]
  · rw [consume_of_exceeded (flag ▸ exceeded)]
    exact .inl ⟨rfl, rfl⟩
  · rw [consume_of_found (flag ▸ running) (kind ▸ found)]
    exact .inr (.inl ⟨rfl, rfl⟩)
  · rw [consume_of_missing (flag ▸ running) (kind ▸ missing)]
    exact .inr (.inr ⟨rfl, rfl⟩)

theorem exceedNesting_cases_both {p q : Parsing} (flag : p.nestingExceeded = q.nestingExceeded) :
    (p.exceedNesting = p ∧ q.exceedNesting = q) ∨
      (p.exceedNesting = { p with nestingExceeded := true }.report ⟨.nestedTooDeeply maxNesting, p.current⟩ ∧
        q.exceedNesting = { q with nestingExceeded := true }.report ⟨.nestedTooDeeply maxNesting, q.current⟩) := by
  cases exceeded : p.nestingExceeded with
  | true => exact .inl ⟨by simp [exceedNesting, exceeded], by simp [exceedNesting, ← flag, exceeded]⟩
  | false => exact .inr ⟨exceedNesting_of_running exceeded, exceedNesting_of_running (flag ▸ exceeded)⟩

structure Agree (place : Location → Location) (joined : Parsing → Parsing → Prop) (a b : Tree × Parsing) : Prop where
  tree : a.1.relocate place = b.1.relocate place
  joined : joined a.2 b.2

section InStepWhile

variable {live : Parsing → Prop} {place : Location → Location} {joined : Parsing → Parsing → Prop}
variable (step : InStepWhile live place joined) {operand : Reader} {p q : Parsing} (both : joined p q)
variable (moves : ∀ level p, Moves p (operand level p).2)
variable (inner : ∀ level {p q : Parsing}, joined p q → live (operand level p).2 →
  Agree place joined (operand level p) (operand level q))

include step

theorem InStepWhile.kind (both : joined p q) : q.current.kind = p.current.kind := by
  have same : (p.current.relocate place).kind = (q.current.relocate place).kind := by rw [step.current both]
  exact same.symm

theorem InStepWhile.lexeme (both : joined p q) : q.current.lexeme = p.current.lexeme := by
  have same : (p.current.relocate place).lexeme = (q.current.relocate place).lexeme := by rw [step.current both]
  exact same.symm

theorem InStepWhile.before {q : Parsing} (moved : Moves p q) (on : live q) : live p := step.earlier moved.turns on

theorem continuation?_congr (both : joined p q) (level : Level) : q.continuation? level = p.continuation? level := by
  rw [continuation?, continuation?, step.nestingExceeded both, step.kind both]

include both

theorem agree_placeholder {p' q' : Parsing} (rest : joined p' q') :
    Agree place joined (.placeholder p.current, p') (.placeholder q.current, q') := by
  refine ⟨?_, rest⟩
  rw [Tree.relocate_placeholder, Tree.relocate_placeholder, step.current both]

include moves inner

theorem agree_readFirst (on : live (readFirst operand p).2) :
    (readFirst operand p).1.map (Tree.relocate place) = (readFirst operand q).1.map (Tree.relocate place) ∧
      joined (readFirst operand p).2 (readFirst operand q).2 := by
  have current := step.current both
  have kind := step.kind both
  have lexeme := step.lexeme both
  rcases readFirst_cases operand p with ⟨number, short, same⟩ | ⟨number, long, same⟩ | ⟨sign, same⟩ | ⟨foreign, same⟩ <;>
    rw [same] at on ⊢
  · rw [readFirst_of_number operand (kind.trans number) (lexeme ▸ short)]
    refine ⟨congrArg some ?_, step.advance both on⟩
    rw [Tree.relocate_literal, Tree.relocate_literal, current]
  · rw [readFirst_of_long operand (kind.trans number) (lexeme ▸ long)]
    refine ⟨congrArg some ?_, step.refuse both (.numberTooLarge number long) on⟩
    rw [Tree.relocate_placeholder, Tree.relocate_placeholder, current]
  · rw [readFirst_of_sign operand (kind ▸ sign)]
    obtain ⟨tree, rest⟩ := inner .unary (step.advance both (step.before (moves _ _) on)) on
    refine ⟨congrArg some ?_, rest⟩
    rw [Tree.relocate_apply, Tree.relocate_apply, current, tree]
  · rw [readFirst_of_foreign operand (kind ▸ foreign)]
    exact ⟨rfl, step.refuse both (.expectedExpression foreign) on⟩

theorem agree_join (binding : Level) {left left' : Tree} (alike : left.relocate place = left'.relocate place)
    (on : live (join operand binding left p).2) :
    Agree place joined (join operand binding left p) (join operand binding left' q) := by
  by_cases loose : binding = .conditional
  · subst loose
    rw [join_conditional] at on ⊢
    rw [join_conditional]
    have divided := step.before (moves _ _) on
    have middle := step.before (Move.divide _).moves divided
    obtain ⟨second, rest⟩ := inner .conditional (step.advance both (step.before (moves _ _) middle)) middle
    obtain ⟨third, rest⟩ := inner .conditional (step.consume .colon dividerMessage rest divided) on
    refine ⟨?_, rest⟩
    rw [Tree.relocate_choose, Tree.relocate_choose, alike, second, third]
  · rw [join_of_ne _ _ _ loose] at on ⊢
    rw [join_of_ne _ _ _ loose]
    obtain ⟨right, rest⟩ := inner binding.tighter (step.advance both (step.before (moves _ _) on)) on
    refine ⟨?_, rest⟩
    rw [Tree.relocate_combine, Tree.relocate_combine, step.current both, alike, right]

theorem agree_extend (room : Nat) (level : Level) {left left' : Tree}
    (alike : left.relocate place = left'.relocate place) (on : live (extend operand room level left p).2) :
    Agree place joined (extend operand room level left p) (extend operand room level left' q) := by
  -- the height decides whether the limit is met, and does not depend on places
  have height : left'.height = left.height := by
    rw [← Tree.height_relocate place, ← alike, Tree.height_relocate]
  fun_induction extend operand room level left p generalizing left' q with
  | case1 left p stops =>
    rw [extend_of_stop operand room left' ((continuation?_congr step both level).trans stops)]
    exact ⟨alike, both⟩
  | case2 left p binding next deep =>
    rw [extend_of_deep operand ((continuation?_congr step both level).trans next) (height ▸ deep)]
    exact ⟨alike, step.exceed both on⟩
  | case3 left p binding next shallow _ =>
    rename_i ih
    have shallow : left'.height ≤ room := height ▸ Nat.le_of_not_lt shallow
    rw [extend_of_shallow operand ((continuation?_congr step both level).trans next) shallow]
    have still := step.before (moves_extend moves room level _ _) on
    obtain ⟨tree, rest⟩ := agree_join step both moves inner binding alike still
    exact ih rest tree on (by rw [← Tree.height_relocate place, ← tree, Tree.height_relocate])

theorem agree_readExpression (room : Nat) (level : Level) (on : live (readExpression operand room level p).2) :
    Agree place joined (readExpression operand room level p) (readExpression operand room level q) := by
  unfold readExpression at on ⊢
  have first := agree_readFirst step both moves inner
  rcases here : readFirst operand p with ⟨_ | tree, p'⟩ <;>
    rcases there : readFirst operand q with ⟨_ | tree', q'⟩ <;>
    rw [here] at on <;> rw [here, there] at first
  · exact agree_placeholder step both (first on).2
  · cases (first on).1
  · cases (first (step.before (moves_extend moves room level tree p') on)).1
  · obtain ⟨alike, rest⟩ := first (step.before (moves_extend moves room level tree p') on)
    exact agree_extend step rest moves inner room level (Option.some.inj alike) on

omit moves inner both

theorem agree_parseWithin (room : Nat) (level : Level) {p q : Parsing} (both : joined p q)
    (on : live (parseWithin room level p).2) :
    Agree place joined (parseWithin room level p) (parseWithin room level q) := by
  induction room generalizing level p q with
  | zero => exact agree_placeholder step both (step.exceed both on)
  | succ room ih =>
    have flag := step.nestingExceeded both
    cases exceeded : p.nestingExceeded with
    | true =>
      rw [parseWithin_of_exceeded exceeded, parseWithin_of_exceeded (flag ▸ exceeded)]
      exact agree_placeholder step both both
    | false =>
      rw [parseWithin_succ exceeded] at on ⊢
      rw [parseWithin_succ (flag ▸ exceeded)]
      have moves := moves_parseWithin room
      have read := step.before (Move.ascend _).moves on
      have start := step.before (moves_readExpression moves room level (p := p.descend) exceeded) read
      obtain ⟨tree, rest⟩ := agree_readExpression step (step.descend both start) moves
        (fun level _ _ both on => ih level both on) room level read
      exact ⟨tree, step.ascend rest on⟩

theorem agree_parse (level : Level) (both : joined p q) (on : live (p.parse level).2) :
    Agree place joined (p.parse level) (q.parse level) := by
  unfold parse at on ⊢
  rw [← step.depth both]
  exact agree_parseWithin step _ level both on

theorem agree_expression_while (both : joined p q) (on : live p.expression.2) :
    Agree place joined p.expression q.expression := by
  rw [expression_eq] at on ⊢
  rw [expression_eq]
  have read := step.earlier (Turn.consume .endOfInput trailingMessage _).turns on
  obtain ⟨tree, rest⟩ := agree_parse step .conditional both read
  exact ⟨tree, step.consume .endOfInput trailingMessage rest on⟩

end InStepWhile

theorem agree_expression {place : Location → Location} {joined : Parsing → Parsing → Prop}
    (step : InStep place joined) {p q : Parsing} (both : joined p q) :
    Agree place joined p.expression q.expression := agree_expression_while step.always both trivial

end Parsing

end Arith
