import Arith.Proofs.PanicRecovery
import Arith.Proofs.SideBySide
import Arith.Proofs.TokenSeams
import Arith.Tree.Printer

namespace Arith

def SyntaxError.relocate (place : Location → Location) (e : SyntaxError) : SyntaxError :=
  { e with token := e.token.relocate place }

def SyntaxError.wording (e : SyntaxError) : Option ErrorCode × String × String × Option (List String) × String :=
  (e.code?, e.message, e.help, e.suggestions?, e.brief)

variable {place : Location → Location}

theorem SyntaxError.wording_relocate (e : SyntaxError) : (e.relocate place).wording = e.wording := rfl

theorem map_relocate_of_faces {a b : List Token} (same : a.map Token.face = b.map Token.face) (l : Location) :
    a.map (·.relocate fun _ => l) = b.map (·.relocate fun _ => l) := by
  have faced : (Token.relocate fun _ => l) = (fun face => ⟨face.1, face.2, l⟩) ∘ Token.face := rfl
  rw [faced, ← List.map_map, ← List.map_map, same]

namespace Tree

theorem print_relocate (t : Tree) : (t.relocate place).print = t.print := by
  induction t <;> simp [relocate, print, Token.relocate, *]

theorem containsError_relocate (t : Tree) : (t.relocate place).containsError = t.containsError := by
  induction t <;> simp [relocate, containsError, *]

theorem describe_relocate {t : Tree} (clean : t.containsError = false) : (t.relocate place).describe = t.describe := by
  induction t with
  | error => cases clean
  | number => rfl
  | unary operator operand span ih =>
    show "UnaryOp(" ++ Text.quoted operator.lexeme ++ ", " ++ (operand.relocate place).describe ++ ")" = _
    rw [ih clean]
    rfl
  | binary operator left right span ihl ihr =>
    rw [containsError, Bool.or_eq_false_iff] at clean
    show "BinaryOp(" ++ Text.quoted operator.lexeme ++ ", " ++ (left.relocate place).describe ++ ", " ++
      (right.relocate place).describe ++ ")" = _
    rw [ihl clean.1, ihr clean.2]
    rfl
  | ternary condition whenTrue whenFalse span ihc iht ihf =>
    rw [containsError, Bool.or_eq_false_iff, Bool.or_eq_false_iff] at clean
    show "TernaryOp(" ++ (condition.relocate place).describe ++ ", " ++ (whenTrue.relocate place).describe ++ ", " ++
      (whenFalse.relocate place).describe ++ ")" = _
    rw [ihc clean.1.1, iht clean.1.2, ihf clean.2]
    rfl

end Tree

theorem Scanner.pull_mirrors {s t : Scanner} (same : s.tokens.map (·.relocate place) = t.tokens.map (·.relocate place)) :
    s.pull.passed.toList.map (·.relocate place) = t.pull.passed.toList.map (·.relocate place) ∧
      (s.pull.scanner.tokensFrom s.pull.token).map (·.relocate place) =
        (t.pull.scanner.tokensFrom t.pull.token).map (·.relocate place) := by
  have invalid (u : Scanner) : ∀ x ∈ u.pull.passed.toList.map (·.relocate place),
      decide (x.kind = .invalid) = true := by
    intro x member
    obtain ⟨t, passed, rfl⟩ := List.mem_map.mp member
    exact decide_eq_true (u.kind_passed_pull t passed)
  have valid (u : Scanner) : ∀ x ∈ ((u.pull.scanner.tokensFrom u.pull.token).map (·.relocate place)).head?,
      decide (x.kind = .invalid) = false := by
    rintro x ⟨⟩
    exact decide_eq_false u.kind_pull_ne_invalid
  -- the kind tells the tokens that are passed over from the one that is reached
  rw [tokens_eq_pull, tokens_eq_pull, List.map_append, List.map_append] at same
  exact front_unique (invalid s) (invalid t) (valid s) (valid t) same

namespace Parsing

structure Mirrors (place : Location → Location) (p q : Parsing) : Prop where
  ahead : p.ahead.map (·.relocate place) = q.ahead.map (·.relocate place)
  still : p.current.kind = .endOfInput → p.scanner.pull = ⟨#[], p.current, p.scanner⟩
  still' : q.current.kind = .endOfInput → q.scanner.pull = ⟨#[], q.current, q.scanner⟩
  hadError : p.hadError = q.hadError
  panicking : p.panicking = q.panicking
  nestingExceeded : p.nestingExceeded = q.nestingExceeded
  depth : p.depth = q.depth
  errors : p.errors.toList.map (·.relocate place) = q.errors.toList.map (·.relocate place)

namespace Mirrors

variable {p q : Parsing}

theorem current (mirrors : Mirrors place p q) : p.current.relocate place = q.current.relocate place :=
  (List.cons.inj mirrors.ahead).1

theorem kind (mirrors : Mirrors place p q) : p.current.kind = q.current.kind := by
  have same : (p.current.relocate place).kind = (q.current.relocate place).kind := by rw [mirrors.current]
  exact same

theorem report (mirrors : Mirrors place p q) {error error' : SyntaxError}
    (same : error.relocate place = error'.relocate place) : Mirrors place (p.report error) (q.report error') := by
  refine ⟨by simpa using mirrors.ahead, by simpa using mirrors.still, by simpa using mirrors.still', ?_, ?_,
    by simpa using mirrors.nestingExceeded, by simpa using mirrors.depth, ?_⟩
  all_goals
    unfold Parsing.report
    rw [← mirrors.panicking]
    split
  · exact mirrors.hadError
  · rfl
  · exact mirrors.panicking
  · rfl
  · exact mirrors.errors
  · rw [Array.toList_push, Array.toList_push, List.map_append, List.map_append, mirrors.errors, List.map_singleton,
      List.map_singleton, same]

theorem reportPassed (mirrors : Mirrors place p q) {passed passed' : Array Token}
    (same : passed.toList.map (·.relocate place) = passed'.toList.map (·.relocate place)) :
    Mirrors place (reportPassed passed p) (reportPassed passed' q) := by
  rw [reportPassed_eq, reportPassed_eq]
  generalize passed.toList = tokens, passed'.toList = tokens' at same
  induction tokens generalizing tokens' p q with
  | nil =>
    rw [List.map_nil, eq_comm, List.map_eq_nil_iff] at same
    subst same
    exact mirrors
  | cons token tokens ih =>
    cases tokens' with
    | nil => cases same
    | cons token' tokens' =>
      obtain ⟨first, rest⟩ := List.cons.inj same
      have error : SyntaxError.relocate place ⟨.lexical, token⟩ = .relocate place ⟨.lexical, token'⟩ :=
        congrArg (SyntaxError.mk .lexical) first
      exact ih (mirrors.report error) tokens' rest

theorem start {s t : Scanner} (same : s.tokens.map (·.relocate place) = t.tokens.map (·.relocate place)) :
    Mirrors place (start s) (Parsing.start t) := by
  obtain ⟨passed, ahead⟩ := Scanner.pull_mirrors same
  apply reportPassed _ passed
  exact ⟨ahead, Scanner.pull_of_pulled_end, Scanner.pull_of_pulled_end, rfl, rfl, rfl, rfl, rfl⟩

theorem advance (mirrors : Mirrors place p q) : Mirrors place p.advance q.advance := by
  by_cases stop : p.current.kind = .endOfInput
  · have stop' : q.current.kind = .endOfInput := mirrors.kind ▸ stop
    rw [Parsing.advance, Parsing.advance, mirrors.still stop, mirrors.still' stop']
    exact ⟨mirrors.ahead, mirrors.still, mirrors.still', mirrors.hadError, mirrors.panicking, mirrors.nestingExceeded, mirrors.depth,
      mirrors.errors⟩
  · have live : q.current.kind ≠ .endOfInput := mirrors.kind ▸ stop
    have ahead := mirrors.ahead
    rw [ahead_of_live stop, ahead_of_live live, List.map_cons, List.map_cons] at ahead
    obtain ⟨passed, ahead⟩ := Scanner.pull_mirrors (List.cons.inj ahead).2
    apply reportPassed _ passed
    exact ⟨ahead, Scanner.pull_of_pulled_end, Scanner.pull_of_pulled_end, mirrors.hadError, mirrors.panicking,
      mirrors.nestingExceeded, mirrors.depth, mirrors.errors⟩

theorem reportCurrent (mirrors : Mirrors place p q) {p' q' : Parsing} (both : Mirrors place p' q')
    (cause : SyntaxError.Cause) : Mirrors place (p'.report ⟨cause, p.current⟩) (q'.report ⟨cause, q.current⟩) :=
  both.report (congrArg (SyntaxError.mk cause) mirrors.current)

theorem consume (mirrors : Mirrors place p q) (expected : Token.Kind) (message : String) :
    Mirrors place (p.consume expected message).2 (q.consume expected message).2 := by
  rcases consume_cases_both expected message mirrors.kind mirrors.nestingExceeded with
    ⟨here, there⟩ | ⟨here, there⟩ | ⟨here, there⟩ <;> rw [here, there]
  · exact mirrors
  · apply advance
    exact ⟨mirrors.ahead, mirrors.still, mirrors.still', mirrors.hadError, rfl, mirrors.nestingExceeded, mirrors.depth,
      mirrors.errors⟩
  · exact mirrors.reportCurrent mirrors _

theorem exceed (mirrors : Mirrors place p q) : Mirrors place p.exceedNesting q.exceedNesting := by
  rcases exceedNesting_cases_both mirrors.nestingExceeded with ⟨here, there⟩ | ⟨here, there⟩ <;> rw [here, there]
  · exact mirrors
  · apply mirrors.reportCurrent
    exact ⟨mirrors.ahead, mirrors.still, mirrors.still', mirrors.hadError, mirrors.panicking, rfl, mirrors.depth,
      mirrors.errors⟩

theorem inStep : InStep place (Mirrors place) where
  current := current
  nestingExceeded := nestingExceeded
  depth := depth
  advance := advance
  refuse mirrors _ := mirrors.reportCurrent mirrors.advance _
  consume expected message mirrors := mirrors.consume expected message
  exceed := exceed
  descend mirrors := ⟨mirrors.ahead, mirrors.still, mirrors.still', mirrors.hadError, mirrors.panicking, mirrors.nestingExceeded,
    congrArg (· + 1) mirrors.depth, mirrors.errors⟩
  ascend mirrors := ⟨mirrors.ahead, mirrors.still, mirrors.still', mirrors.hadError, mirrors.panicking, mirrors.nestingExceeded,
    congrArg (· - 1) mirrors.depth, mirrors.errors⟩

end Mirrors

/-- Two readings that show the same, apart from the places in them. An error node shows nothing but its place. -/
structure SameReading (a b : Tree × Parsing) : Prop where
  print : a.1.print = b.1.print
  height : a.1.height = b.1.height
  describe (l : Location) : (a.1.relocate fun _ => l).describe = (b.1.relocate fun _ => l).describe
  clean : a.1.containsError = false → a.1.describe = b.1.describe
  hadError : a.2.hadError = b.2.hadError
  panicking : a.2.panicking = b.2.panicking
  nestingExceeded : a.2.nestingExceeded = b.2.nestingExceeded
  errors : a.2.errors.toList.map SyntaxError.wording = b.2.errors.toList.map SyntaxError.wording

theorem sameReading_of_agree {a b : Tree × Parsing}
    (agree : ∀ l : Location, Agree (fun _ => l) (Mirrors fun _ => l) a b) : SameReading a b := by
  obtain ⟨tree, mirrors⟩ := agree ⟨"", 1, 1, 0⟩
  refine ⟨?_, ?_, fun l => congrArg Tree.describe (agree l).tree, fun clean => ?_, mirrors.hadError, mirrors.panicking,
    mirrors.nestingExceeded, ?_⟩
  · rw [← Tree.print_relocate a.1, tree, Tree.print_relocate]
  · rw [← Tree.height_relocate _ a.1, tree, Tree.height_relocate]
  · have clean' : b.1.containsError = false := by
      rw [← Tree.containsError_relocate b.1, ← tree, Tree.containsError_relocate, clean]
    rw [← Tree.describe_relocate clean, tree, Tree.describe_relocate clean']
  · have worded : (SyntaxError.wording ∘ SyntaxError.relocate fun _ => ⟨"", 1, 1, 0⟩) = SyntaxError.wording :=
      funext SyntaxError.wording_relocate
    have same := congrArg (List.map SyntaxError.wording) mirrors.errors
    rwa [List.map_map, List.map_map, worded] at same

end Parsing

theorem sameReading_of_faces {source source' filename filename' : String}
    (same : faces source filename = faces source' filename') :
    Parsing.SameReading (Parsing.ofSource source filename).expression (Parsing.ofSource source' filename').expression :=
  Parsing.sameReading_of_agree fun l =>
    Parsing.agree_expression Parsing.Mirrors.inStep (Parsing.Mirrors.start (map_relocate_of_faces same l))

/-- Texts whose tokens show the same are read the same, and whitespace may be put anywhere but into a number. -/
theorem layout_irrelevant :
    (∀ source source' filename filename' : String, faces source filename = faces source' filename' →
      Parsing.SameReading (Parsing.ofSource source filename).expression
        (Parsing.ofSource source' filename').expression) ∧
    ∀ front gap back filename filename' : String, (∀ c ∈ gap.toList, isWhitespace c = true) →
      ¬ SplitsNumber front.toList back.toList →
        faces (front ++ gap ++ back) filename = faces (front ++ back) filename' ∧
          Parsing.SameReading (Parsing.ofSource (front ++ gap ++ back) filename).expression
            (Parsing.ofSource (front ++ back) filename').expression := by
  refine ⟨fun _ _ _ _ same => sameReading_of_faces same, fun front gap back filename filename' blank whole => ?_⟩
  have same := faces_insert filename filename' blank whole
  exact ⟨same, sameReading_of_faces same⟩

theorem layout_irrelevant_line_break :
    Parsing.SameReading (Parsing.ofSource ("1 ?$" ++ " \n" ++ "22 3") "<input>").expression
      (Parsing.ofSource ("1 ?$" ++ "22 3") "<input>").expression :=
  (layout_irrelevant.2 "1 ?$" " \n" "22 3" "<input>" "<input>"
    (List.all_eq_true.mp (by decide +kernel)) (by decide +kernel)).2

/-- An error node shows its place, and where the end of a text is depends on the layout. -/
theorem describe_depends_on_layout :
    faces "" "<input>" = faces " " "<input>" ∧
      (Parsing.ofSource "" "<input>").expression.1.describe ≠ (Parsing.ofSource " " "<input>").expression.1.describe := by
  decide +kernel

end Arith
