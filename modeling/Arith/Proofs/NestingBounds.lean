import Arith.Proofs.NestingLimit
import Arith.Proofs.SessionRuns
import Arith.Tree.Printer

namespace Arith

namespace Tree

/-- Prints with at most `levels` calls inside each other, or is left without an answer. -/
def printWithin : (levels : Nat) → Tree → Option String
  | 0, _ => none
  | _ + 1, error _ => some "<error>"
  | _ + 1, number value _ => some (toString value)
  | levels + 1, unary operator operand _ =>
    (operand.printWithin levels).map fun operand => "(" ++ operator.lexeme ++ " " ++ operand ++ ")"
  | levels + 1, binary operator left right _ =>
    (left.printWithin levels).bind fun left => (right.printWithin levels).map fun right =>
      "(" ++ operator.lexeme ++ " " ++ left ++ " " ++ right ++ ")"
  | levels + 1, ternary condition whenTrue whenFalse _ =>
    (condition.printWithin levels).bind fun condition => (whenTrue.printWithin levels).bind fun whenTrue =>
      (whenFalse.printWithin levels).map fun whenFalse =>
        "(?: " ++ condition ++ " " ++ whenTrue ++ " " ++ whenFalse ++ ")"

def containsErrorWithin : (levels : Nat) → Tree → Option Bool
  | 0, _ => none
  | _ + 1, error _ => some true
  | _ + 1, number _ _ => some false
  | levels + 1, unary _ operand _ => operand.containsErrorWithin levels
  | levels + 1, binary _ left right _ =>
    (left.containsErrorWithin levels).bind fun found =>
      if found then some true else right.containsErrorWithin levels
  | levels + 1, ternary condition whenTrue whenFalse _ =>
    (condition.containsErrorWithin levels).bind fun found =>
      if found then some true
      else (whenTrue.containsErrorWithin levels).bind fun found =>
        if found then some true else whenFalse.containsErrorWithin levels

theorem printWithin_eq (levels : Nat) (t : Tree) :
    t.printWithin levels = if t.height ≤ levels then some t.print else none := by
  induction t generalizing levels with
  | error | number => cases levels <;> simp [printWithin, print, height]
  | unary operator operand span ih =>
    cases levels with
    | zero => simp [printWithin, height]
    | succ levels =>
      simp only [printWithin, ih, height, Nat.succ_le_succ_iff]
      split <;> simp [print]
  | binary operator left right span leftIh rightIh =>
    cases levels with
    | zero => simp [printWithin, height]
    | succ levels =>
      simp only [printWithin, leftIh, rightIh, height, Nat.succ_le_succ_iff, Nat.max_le]
      by_cases low : left.height ≤ levels <;> by_cases high : right.height ≤ levels <;> simp [low, high, print]
  | ternary condition whenTrue whenFalse span conditionIh trueIh falseIh =>
    cases levels with
    | zero => simp [printWithin, height]
    | succ levels =>
      simp only [printWithin, conditionIh, trueIh, falseIh, height, Nat.succ_le_succ_iff, Nat.max_le]
      by_cases first : condition.height ≤ levels <;> by_cases second : whenTrue.height ≤ levels <;>
        by_cases third : whenFalse.height ≤ levels <;> simp [first, second, third, print]

theorem containsErrorWithin_eq {levels : Nat} {t : Tree} (fits : t.height ≤ levels) :
    t.containsErrorWithin levels = some t.containsError := by
  induction t generalizing levels with
  | error | number =>
    obtain ⟨levels, rfl⟩ := Nat.exists_eq_add_of_le' fits
    rfl
  | unary operator operand span ih =>
    cases levels with
    | zero => simp [height] at fits
    | succ levels =>
      simp only [height, Nat.succ_le_succ_iff] at fits
      exact ih fits
  | binary operator left right span leftIh rightIh =>
    cases levels with
    | zero => simp [height] at fits
    | succ levels =>
      simp only [height, Nat.succ_le_succ_iff, Nat.max_le] at fits
      simp only [containsErrorWithin, leftIh fits.1, rightIh fits.2, Option.bind_some, containsError]
      cases left.containsError <;> rfl
  | ternary condition whenTrue whenFalse span conditionIh trueIh falseIh =>
    cases levels with
    | zero => simp [height] at fits
    | succ levels =>
      simp only [height, Nat.succ_le_succ_iff, Nat.max_le] at fits
      simp only [containsErrorWithin, conditionIh fits.1.1, trueIh fits.1.2, falseIh fits.2, Option.bind_some,
        containsError]
      cases condition.containsError <;> cases whenTrue.containsError <;> rfl

end Tree

namespace Parsing

@[simp] theorem deepest_report (error : SyntaxError) (p : Parsing) : (p.report error).deepest = p.deepest := by
  unfold report
  split <;> rfl

structure Surfaces (bound : Nat) (p q : Parsing) : Prop where
  depth : q.depth = p.depth
  deepest : q.deepest ≤ max p.deepest bound

namespace Surfaces

variable {bound : Nat}

theorem refl (p : Parsing) : Surfaces bound p p := ⟨rfl, Nat.le_max_left _ _⟩

theorem trans {p q r : Parsing} (first : Surfaces bound p q) (second : Surfaces bound q r) : Surfaces bound p r :=
  ⟨second.depth.trans first.depth,
    Nat.le_trans second.deepest (Nat.max_le.mpr ⟨first.deepest, Nat.le_max_right _ _⟩)⟩

theorem of_eq {p q : Parsing} (depth : q.depth = p.depth) (deepest : q.deepest = p.deepest) : Surfaces bound p q :=
  ⟨depth, by rw [deepest]; exact Nat.le_max_left _ _⟩

theorem report (error : SyntaxError) (p : Parsing) : Surfaces bound p (p.report error) :=
  of_eq (depth_report error p) (deepest_report error p)

theorem advance (p : Parsing) : Surfaces bound p p.advance :=
  reportPassed_induction (motive := Surfaces bound p) _ (of_eq rfl rfl)
    (fun q _ _ surfaces => surfaces.trans (report _ q))

theorem consume (expected : Token.Kind) (message : String) (p : Parsing) :
    Surfaces bound p (p.consume expected message).2 := by
  rcases consume_cases expected message p with ⟨_, same⟩ | ⟨_, _, same⟩ | ⟨_, _, same⟩ <;> rw [same]
  · exact refl p
  · exact (of_eq rfl rfl : Surfaces bound p { p with panicking := false }).trans (advance _)
  · exact report _ p

theorem exceed (p : Parsing) : Surfaces bound p p.exceedNesting := by
  unfold exceedNesting
  split
  · exact refl p
  · exact (of_eq rfl rfl : Surfaces bound p { p with nestingExceeded := true }).trans (report _ _)

theorem call {p q : Parsing} (deep : p.depth < bound) (inner : Surfaces bound p.descend q) :
    Surfaces bound p q.ascend := by
  have depth := inner.depth
  have deepest := inner.deepest
  -- the call is itself one level, so `p` may not have reached the bound yet
  simp only [descend] at depth deepest
  refine ⟨?_, ?_⟩ <;> simp only [ascend] <;> omega

section Operands

variable {operand : Reader} {room : Nat}
variable (inner : ∀ level p, p.depth + room ≤ bound → Surfaces bound p (operand level p).2)

include inner

theorem readFirst {p : Parsing} (deep : p.depth + room ≤ bound) : Surfaces bound p (readFirst operand p).2 := by
  have next : Surfaces bound p p.advance := advance p
  rcases readFirst_cases operand p with ⟨_, _, same⟩ | ⟨_, _, same⟩ | ⟨_, same⟩ | ⟨_, same⟩ <;> rw [same]
  · exact next
  · exact next.trans (report _ _)
  · exact next.trans (inner _ _ (by rw [next.depth]; exact deep))
  · exact next.trans (report _ _)

theorem join (binding : Level) (left : Tree) {p : Parsing} (deep : p.depth + room ≤ bound) :
    Surfaces bound p (join operand binding left p).2 := by
  have next : Surfaces bound p p.advance := advance p
  have operands : ∀ level, Surfaces bound p (operand level p.advance).2 :=
    fun level => next.trans (inner level _ (by rw [next.depth]; exact deep))
  by_cases loose : binding = .conditional
  · subst loose
    rw [join_conditional]
    have divided := (operands .conditional).trans (consume .colon dividerMessage _)
    exact divided.trans (inner _ _ (by rw [divided.depth]; exact deep))
  · rw [join_of_ne _ _ _ loose]
    exact operands _

theorem extend (limit : Nat) (level : Level) (left : Tree) {p : Parsing} (deep : p.depth + room ≤ bound) :
    Surfaces bound p (extend operand limit level left p).2 := by
  fun_induction Parsing.extend operand limit level left p with
  | case1 => exact refl _
  | case2 => exact exceed _
  | case3 left p binding _ _ joined ih =>
    have one := join inner binding left deep
    exact one.trans (ih (by rw [one.depth]; exact deep))

theorem readExpression (limit : Nat) (level : Level) {p : Parsing} (deep : p.depth + room ≤ bound) :
    Surfaces bound p (readExpression operand limit level p).2 := by
  have first := readFirst inner deep
  unfold Parsing.readExpression
  split
  · rename_i q same
    rwa [same] at first
  · rename_i tree q same
    rw [same] at first
    exact first.trans (extend inner limit level tree (by rw [first.depth]; exact deep))

end Operands

theorem parseWithin (room : Nat) (level : Level) {p : Parsing} (deep : p.depth + room ≤ bound) :
    Surfaces bound p (parseWithin room level p).2 := by
  induction room generalizing level p with
  | zero => exact exceed p
  | succ room ih =>
    by_cases running : p.nestingExceeded = false
    · rw [parseWithin_succ running]
      have inner : p.descend.depth + room ≤ bound := by simp only [descend]; omega
      exact call (by omega) (readExpression (fun level q deep => ih level deep) room level inner)
    · rw [parseWithin_of_exceeded (by simpa using running)]
      exact refl p

end Surfaces

theorem depth_advance (p : Parsing) : p.advance.depth = p.depth := by
  have surfaces : Surfaces 0 p p.advance := .advance p
  exact surfaces.depth

theorem depth_consume (expected : Token.Kind) (message : String) (p : Parsing) :
    (p.consume expected message).2.depth = p.depth := by
  have surfaces : Surfaces 0 p (p.consume expected message).2 := .consume expected message p
  exact surfaces.depth

theorem depth_parseWithin (room : Nat) (level : Level) (p : Parsing) : (parseWithin room level p).2.depth = p.depth :=
  (Surfaces.parseWithin room level (Nat.le_refl _)).depth

theorem depth_readFirst (room : Nat) (p : Parsing) : (readFirst (parseWithin room) p).2.depth = p.depth := by
  have surfaces : Surfaces (p.depth + room) p (readFirst (parseWithin room) p).2 :=
    .readFirst (fun level _ deep => .parseWithin room level deep) (Nat.le_refl _)
  exact surfaces.depth

theorem depth_join (room : Nat) (binding : Level) (left : Tree) (p : Parsing) :
    (join (parseWithin room) binding left p).2.depth = p.depth := by
  have surfaces : Surfaces (p.depth + room) p (join (parseWithin room) binding left p).2 :=
    .join (fun level _ deep => .parseWithin room level deep) binding left (Nat.le_refl _)
  exact surfaces.depth

section Operands

variable {operand : Reader} {room : Nat} (low : ∀ level p, (operand level p).1.height ≤ room + 1)

include low

theorem height_readFirst_le (p : Parsing) :
    ∀ tree, (readFirst operand p).1 = some tree → tree.height ≤ room + 2 := by
  rcases readFirst_cases operand p with ⟨_, _, same⟩ | ⟨_, _, same⟩ | ⟨_, same⟩ | ⟨_, same⟩ <;>
    rw [same] <;> rintro tree ⟨⟩
  · exact Nat.succ_le_succ (Nat.zero_le _)
  · exact Nat.succ_le_succ (Nat.zero_le _)
  · exact Nat.succ_le_succ (low _ _)

theorem height_join_le (binding : Level) {left : Tree} (p : Parsing) (fits : left.height ≤ room) :
    (join operand binding left p).1.height ≤ room + 2 := by
  have leftLow := Nat.le_succ_of_le fits
  by_cases loose : binding = .conditional
  · subst loose
    rw [join_conditional]
    exact Nat.succ_le_succ (Nat.max_le.mpr ⟨Nat.max_le.mpr ⟨leftLow, low _ _⟩, low _ _⟩)
  · rw [join_of_ne _ _ _ loose]
    exact Nat.succ_le_succ (Nat.max_le.mpr ⟨leftLow, low _ _⟩)

theorem height_extend_le (level : Level) {left : Tree} (p : Parsing) (leftLow : left.height ≤ room + 2) :
    (extend operand room level left p).1.height ≤ room + 2 := by
  fun_induction extend operand room level left p with
  | case1 => exact leftLow
  | case2 => exact leftLow
  | case3 left p binding _ fits joined ih => exact ih (height_join_le low binding p (Nat.le_of_not_lt fits))

theorem height_readExpression_le (level : Level) (p : Parsing) :
    (readExpression operand room level p).1.height ≤ room + 2 := by
  have first := height_readFirst_le low p
  unfold readExpression
  split
  · exact Nat.succ_le_succ (Nat.zero_le _)
  · rename_i tree q same
    rw [same] at first
    exact height_extend_le low level q (first tree rfl)

end Operands

/-- Only the placeholder that marks the limit may stand one level below it. -/
theorem height_parseWithin_le (room : Nat) (level : Level) (p : Parsing) :
    (parseWithin room level p).1.height ≤ room + 1 := by
  induction room generalizing level p with
  | zero => exact Nat.le_refl 1
  | succ room ih =>
    by_cases running : p.nestingExceeded = false
    · rw [parseWithin_succ running]
      exact height_readExpression_le ih level p.descend
    · rw [parseWithin_of_exceeded (by simpa using running)]
      exact Nat.succ_le_succ (Nat.zero_le _)

theorem height_parseWithin_of_running {room : Nat} {level : Level} {p : Parsing}
    (running : (parseWithin room level p).2.nestingExceeded = false) :
    (parseWithin room level p).1.height ≤ room := by
  rcases within_parseWithin room level p with ⟨fits, same⟩ | ⟨_, stopped⟩
  · rwa [same]
  · rw [running] at stopped
    cases stopped

/-- What holds of a call that reads an expression where nothing nests deeper than `limit`. -/
structure Bounded (limit : Nat) (result : Tree × Parsing) : Prop where
  deepest : result.2.deepest ≤ limit
  depth : result.2.depth = 0
  height : result.1.height ≤ limit + 1
  fits : result.2.nestingExceeded = false → result.1.height ≤ limit
  printed : result.1.printWithin (limit + 1) = some result.1.print
  searched : result.1.containsErrorWithin (limit + 1) = some result.1.containsError

theorem bounded_parse {parser : Parser} (outermost : parser.depth = 0) (source : Scanner) (level : Level) :
    Bounded maxNesting ((resume parser source).parse level) := by
  have start : (resume parser source).depth = 0 := outermost
  rw [parse_of_outermost start]
  have deep : (resume parser source).depth + maxNesting ≤ maxNesting := by rw [start]; exact Nat.le_refl _
  have calls := Surfaces.parseWithin maxNesting level deep
  have low := height_parseWithin_le maxNesting level (resume parser source)
  refine ⟨?_, calls.depth.trans start, low, height_parseWithin_of_running, ?_, Tree.containsErrorWithin_eq low⟩
  · have deepest := calls.deepest
    rwa [show (resume parser source).deepest = 0 from outermost, Nat.zero_max] at deepest
  · rw [Tree.printWithin_eq, if_pos low]

theorem bounded_expression {parser : Parser} (outermost : parser.depth = 0) (source : Scanner) :
    Bounded maxNesting (resume parser source).expression := by
  have read := bounded_parse outermost source .conditional
  rw [expression_eq]
  generalize (resume parser source).parse .conditional = result at read
  have stop : Surfaces maxNesting result.2 (result.2.consume .endOfInput trailingMessage).2 := .consume _ _ _
  refine ⟨?_, stop.depth.trans read.depth, read.height, ?_, read.printed, read.searched⟩
  · exact Nat.le_trans stop.deepest (Nat.max_le.mpr ⟨read.deepest, Nat.le_refl _⟩)
  · rw [nestingExceeded_consume]
    exact read.fits

end Parsing

namespace Session

theorem kept_outermost : Kept fun parser _ => parser.depth = 0 where
  start source := Parsing.depth_start source
  call {action client call parser source} calls outermost := by
    cases calls with
    | expression => exact (Parsing.bounded_expression outermost source).depth
    | parse _ level => exact (Parsing.bounded_parse outermost source level).depth
    | advance =>
      have kept : Parsing.Surfaces 0 (.resume parser source) _ := .advance _
      exact kept.depth.trans outermost
    | consume _ expected message =>
      have kept : Parsing.Surfaces 0 (.resume parser source) _ := .consume expected message _
      exact kept.depth.trans outermost
    | look => exact outermost
  elsewhere outermost _ := outermost

/-- However parsers were used before, every call that reads an expression is carried out, keeps the bounds while it
goes on, and leaves no call open. -/
theorem nesting_bounded {sources : List (String × String)} {actions : List Action} {events : List Event}
    {s : Session} (run : (ofSources sources).run actions = some (events, s)) {c : Nat} {client : Client}
    (named : s.clients[c]? = some client) :
    ∃ source, s.scanners[client.scanner]? = some source ∧
      (∀ level,
        let read := (Parsing.resume client.parser source).parse level
        s.perform (.parse c level) = some (s.outcome c client.scanner (.tree read.1, read.2)) ∧
          Parsing.Bounded maxNesting read) ∧
      let read := (Parsing.resume client.parser source).expression
      s.perform (.expression c) = some (s.outcome c client.scanner (.tree read.1, read.2)) ∧
        Parsing.Bounded maxNesting read := by
  obtain ⟨source, found, outermost⟩ := satisfied_of_run kept_outermost run c client named
  refine ⟨source, found, fun level => ⟨?_, Parsing.bounded_parse outermost source level⟩, ?_,
    Parsing.bounded_expression outermost source⟩
  · exact (Calls.parse c level).perform_eq named found
  · exact (Calls.expression c).perform_eq named found

theorem nesting_bounded_shared_signs :
    ∃ events s client,
      (ofSources [("1 ? " ++ String.ofList (List.replicate 210 '-'), "")]).run
          [.create 0, .create 0, .parse 0 .conditional, .advance 1] = some (events, s) ∧
        s.clients[1]? = some client ∧
        ∃ source, s.scanners[client.scanner]? = some source ∧
          Parsing.Bounded maxNesting (Parsing.resume client.parser source).expression := by
  have ran : (((ofSources [("1 ? " ++ String.ofList (List.replicate 210 '-'), "")]).run
      [.create 0, .create 0, .parse 0 .conditional, .advance 1]).bind fun done =>
        done.2.clients[1]?).isSome = true := by decide +kernel
  obtain ⟨client, found⟩ := Option.isSome_iff_exists.mp ran
  obtain ⟨⟨events, s⟩, run, named⟩ := Option.bind_eq_some_iff.mp found
  obtain ⟨source, scanner, _, _, bounded⟩ := nesting_bounded run named
  exact ⟨events, s, client, run, named, source, scanner, bounded⟩

end Session

end Arith
