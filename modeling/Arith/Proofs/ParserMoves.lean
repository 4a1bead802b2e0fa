import Arith.Parser.Expression
import Arith.Proofs.Phrases
import Arith.Proofs.TokenStream
import Mathlib.Logic.Relation

namespace Arith

def Report.error : Report → SyntaxError
  | recorded error | suppressed error => error

namespace Parsing

/-- Every error that was found, the suppressed ones included. -/
def reported (p : Parsing) : List SyntaxError := p.reports.toList.map Report.error

/-- The tokens from the current one to the end, the invalid ones included. -/
def ahead (p : Parsing) : List Token := p.scanner.tokensFrom p.current

@[simp] theorem previous_report (error : SyntaxError) (p : Parsing) : (p.report error).previous = p.previous := by
  unfold report
  split <;> rfl

@[simp] theorem current_report (error : SyntaxError) (p : Parsing) : (p.report error).current = p.current := by
  unfold report
  split <;> rfl

@[simp] theorem scanner_report (error : SyntaxError) (p : Parsing) : (p.report error).scanner = p.scanner := by
  unfold report
  split <;> rfl

@[simp] theorem nestingExceeded_report (error : SyntaxError) (p : Parsing) :
    (p.report error).nestingExceeded = p.nestingExceeded := by
  unfold report
  split <;> rfl

@[simp] theorem received_report (error : SyntaxError) (p : Parsing) : (p.report error).received = p.received := by
  unfold report
  split <;> rfl

@[simp] theorem reported_report (error : SyntaxError) (p : Parsing) :
    (p.report error).reported = p.reported ++ [error] := by
  unfold report
  split <;> simp [reported, Report.error]

theorem reportPassed_eq (passed : Array Token) (p : Parsing) :
    reportPassed passed p = passed.toList.foldl (fun p token => p.report ⟨.lexical, token⟩) p := by
  rw [reportPassed, Array.foldl_toList]

theorem reportPassed_induction {motive : Parsing → Prop} (passed : Array Token) {p : Parsing} (here : motive p)
    (step : ∀ q token, token ∈ passed.toList → motive q → motive (q.report ⟨.lexical, token⟩)) :
    motive (reportPassed passed p) := by
  rw [reportPassed_eq]
  revert step
  generalize passed.toList = tokens
  intro step
  induction tokens generalizing p with
  | nil => exact here
  | cons token tokens ih =>
    rw [List.foldl_cons]
    exact ih (step p token List.mem_cons_self here)
      (fun q t member => step q t (List.mem_cons_of_mem token member))

@[simp] theorem current_reportPassed (passed : Array Token) (p : Parsing) :
    (reportPassed passed p).current = p.current :=
  reportPassed_induction (motive := fun q => q.current = p.current) passed rfl (fun q t _ h => by simp [h])

@[simp] theorem scanner_reportPassed (passed : Array Token) (p : Parsing) :
    (reportPassed passed p).scanner = p.scanner :=
  reportPassed_induction (motive := fun q => q.scanner = p.scanner) passed rfl (fun q t _ h => by simp [h])

@[simp] theorem nestingExceeded_reportPassed (passed : Array Token) (p : Parsing) :
    (reportPassed passed p).nestingExceeded = p.nestingExceeded :=
  reportPassed_induction (motive := fun q => q.nestingExceeded = p.nestingExceeded) passed rfl
    (fun q t _ h => by simp [h])

@[simp] theorem received_reportPassed (passed : Array Token) (p : Parsing) :
    (reportPassed passed p).received = p.received :=
  reportPassed_induction (motive := fun q => q.received = p.received) passed rfl (fun q t _ h => by simp [h])

@[simp] theorem previous_reportPassed (passed : Array Token) (p : Parsing) :
    (reportPassed passed p).previous = p.previous :=
  reportPassed_induction (motive := fun q => q.previous = p.previous) passed rfl (fun q t _ h => by simp [h])

@[simp] theorem reported_reportPassed (passed : Array Token) (p : Parsing) :
    (reportPassed passed p).reported = p.reported ++ passed.toList.map (⟨.lexical, ·⟩) := by
  rw [reportPassed_eq]
  generalize passed.toList = tokens
  induction tokens generalizing p with
  | nil => simp
  | cons token tokens ih => simp [ih]

@[simp] theorem previous_advance (p : Parsing) : p.advance.previous = some p.current := by
  simp [advance]

@[simp] theorem received_advance (p : Parsing) :
    p.advance.received = (p.received ++ p.scanner.pull.passed).push p.scanner.pull.token := by
  simp [advance]

@[simp] theorem current_advance (p : Parsing) : p.advance.current = p.scanner.pull.token := by
  simp [advance]

@[simp] theorem scanner_advance (p : Parsing) : p.advance.scanner = p.scanner.pull.scanner := by
  simp [advance]

@[simp] theorem nestingExceeded_advance (p : Parsing) : p.advance.nestingExceeded = p.nestingExceeded := by
  simp [advance]

@[simp] theorem reported_advance (p : Parsing) :
    p.advance.reported = p.reported ++ p.scanner.pull.passed.toList.map (⟨.lexical, ·⟩) := by
  simp only [advance, reported_reportPassed]
  rfl

theorem consume_cases (expected : Token.Kind) (message : String) (p : Parsing) :
    (p.nestingExceeded = true ∧ p.consume expected message = (false, p)) ∨
      (p.nestingExceeded = false ∧ p.current.kind = expected ∧
        p.consume expected message = (true, { p with panicking := false }.advance)) ∨
      (p.nestingExceeded = false ∧ p.current.kind ≠ expected ∧
        p.consume expected message = (false, p.report ⟨.missing expected message, p.current⟩)) := by
  unfold consume
  by_cases exceeded : p.nestingExceeded = true
  · simp [exceeded]
  · by_cases found : p.current.kind = expected <;> simp [exceeded, found]

theorem consume_of_exceeded {p : Parsing} (exceeded : p.nestingExceeded = true) (expected : Token.Kind)
    (message : String) : p.consume expected message = (false, p) := by
  simp [consume, exceeded]

theorem consume_of_found {p : Parsing} {expected : Token.Kind} (running : p.nestingExceeded = false)
    (found : p.current.kind = expected) (message : String) :
    p.consume expected message = (true, { p with panicking := false }.advance) := by
  simp [consume, running, found]

theorem consume_of_missing {p : Parsing} {expected : Token.Kind} (running : p.nestingExceeded = false)
    (missing : p.current.kind ≠ expected) (message : String) :
    p.consume expected message = (false, p.report ⟨.missing expected message, p.current⟩) := by
  simp [consume, running, missing]

theorem readFirst_of_number (operand : Reader) {p : Parsing} (kind : p.current.kind = .number)
    (short : p.current.lexeme.length ≤ maxDigits) :
    readFirst operand p = (some p.current.literal, p.advance) := by
  simp [readFirst, readNumber, kind, short]

theorem readFirst_of_long (operand : Reader) {p : Parsing} (kind : p.current.kind = .number)
    (long : maxDigits < p.current.lexeme.length) :
    readFirst operand p = (some (.placeholder p.current), p.advance.report ⟨.numberTooLarge, p.current⟩) := by
  simp [readFirst, readNumber, kind, Nat.not_le_of_lt long]

theorem readFirst_of_sign (operand : Reader) {p : Parsing}
    (kind : p.current.kind = .minus ∨ p.current.kind = .bang) :
    readFirst operand p =
      (some (.apply p.current (operand .unary p.advance).1), (operand .unary p.advance).2) := by
  rcases kind with kind | kind <;> simp [readFirst, kind]

theorem readFirst_of_foreign (operand : Reader) {p : Parsing} (foreign : p.current.kind.begins = false) :
    readFirst operand p = (none, p.advance.report ⟨.expectedExpression, p.current⟩) := by
  unfold readFirst
  cases kind : p.current.kind with
  | number | minus | bang =>
    rw [kind] at foreign
    cases foreign
  | _ => simp [kind]

theorem readFirst_cases (operand : Reader) (p : Parsing) :
    (p.current.kind = .number ∧ p.current.lexeme.length ≤ maxDigits ∧
        readFirst operand p = (some p.current.literal, p.advance)) ∨
      (p.current.kind = .number ∧ maxDigits < p.current.lexeme.length ∧
        readFirst operand p =
          (some (.placeholder p.current), p.advance.report ⟨.numberTooLarge, p.current⟩)) ∨
      ((p.current.kind = .minus ∨ p.current.kind = .bang) ∧
        readFirst operand p =
          (some (.apply p.current (operand .unary p.advance).1), (operand .unary p.advance).2)) ∨
      (p.current.kind.begins = false ∧
        readFirst operand p = (none, p.advance.report ⟨.expectedExpression, p.current⟩)) := by
  cases kind : p.current.kind with
  | number =>
    rcases Nat.lt_or_ge maxDigits p.current.lexeme.length with long | short
    · exact .inr (.inl ⟨rfl, long, readFirst_of_long operand kind long⟩)
    · exact .inl ⟨rfl, short, readFirst_of_number operand kind short⟩
  | minus => exact .inr (.inr (.inl ⟨.inl rfl, readFirst_of_sign operand (.inl kind)⟩))
  | bang => exact .inr (.inr (.inl ⟨.inr rfl, readFirst_of_sign operand (.inr kind)⟩))
  | _ => exact .inr (.inr (.inr ⟨rfl, readFirst_of_foreign operand (by rw [kind]; rfl)⟩))

def dividerMessage : String := "Expected ':' after true condition"

theorem join_conditional (operand : Reader) (left : Tree) (p : Parsing) :
    join operand .conditional left p =
      let second := operand .conditional p.advance
      let divided := (second.2.consume .colon dividerMessage).2
      let third := operand .conditional divided
      (.choose left second.1 third.1, third.2) := rfl

theorem join_of_ne (operand : Reader) {binding : Level} (left : Tree) (p : Parsing)
    (tight : binding ≠ .conditional) :
    join operand binding left p =
      (.combine p.current left (operand binding.tighter p.advance).1, (operand binding.tighter p.advance).2) := by
  simp [join, tight]

theorem continuation?_eq_some_iff (level binding : Level) (p : Parsing) :
    p.continuation? level = some binding ↔
      p.nestingExceeded = false ∧ p.current.kind.binding? = some binding ∧ level ≤ binding := by
  unfold continuation?
  cases p.nestingExceeded <;> simp [Option.filter_eq_some_iff]

section Continuation

variable {level binding : Level} {p : Parsing} (next : p.continuation? level = some binding)

include next

theorem running_of_continuation : p.nestingExceeded = false := ((continuation?_eq_some_iff _ _ _).mp next).1

theorem binding_of_continuation : p.current.kind.binding? = some binding :=
  ((continuation?_eq_some_iff _ _ _).mp next).2.1

theorem live_of_continuation : p.current.kind ≠ .endOfInput :=
  (Token.Kind.ne_of_binding (binding_of_continuation next)).1

end Continuation

theorem extend_of_stop (operand : Reader) (room : Nat) {level : Level} (left : Tree) {p : Parsing}
    (stops : p.continuation? level = none) : extend operand room level left p = (left, p) := by
  rw [extend, stops]

theorem extend_of_exceeded (operand : Reader) (room : Nat) (level : Level) (left : Tree) {p : Parsing}
    (exceeded : p.nestingExceeded = true) : extend operand room level left p = (left, p) := by
  apply extend_of_stop
  simp [continuation?, exceeded]

theorem extend_of_shallow (operand : Reader) {room : Nat} {level binding : Level} {left : Tree} {p : Parsing}
    (next : p.continuation? level = some binding) (shallow : left.height ≤ room) :
    extend operand room level left p =
      extend operand room level (join operand binding left p).1 (join operand binding left p).2 := by
  rw [extend, next]
  simp [Nat.not_lt_of_le shallow]

theorem extend_of_deep (operand : Reader) {room : Nat} {level binding : Level} {left : Tree} {p : Parsing}
    (next : p.continuation? level = some binding) (deep : room < left.height) :
    extend operand room level left p = (left, p.exceedNesting) := by
  rw [extend, next]
  simp [deep]

inductive Refused (token : Token) : SyntaxError.Cause → Prop where
  | expectedExpression (foreign : token.kind.begins = false) : Refused token .expectedExpression
  | numberTooLarge (kind : token.kind = .number) (long : maxDigits < token.lexeme.length) :
      Refused token .numberTooLarge

/-- Whatever is read, a parser makes no other moves than these. -/
inductive Move : Parsing → Parsing → Prop where
  | pass {p : Parsing} (running : p.nestingExceeded = false) (live : p.current.kind ≠ .endOfInput) :
      Move p p.advance
  | refuse {p : Parsing} {cause : SyntaxError.Cause} (running : p.nestingExceeded = false)
      (refused : Refused p.current cause) : Move p (p.advance.report ⟨cause, p.current⟩)
  | divide (p : Parsing) : Move p (p.consume .colon dividerMessage).2
  | exceed (p : Parsing) : Move p p.exceedNesting
  | descend (p : Parsing) : Move p p.descend
  | ascend (p : Parsing) : Move p p.ascend

def Moves : Parsing → Parsing → Prop := Relation.ReflTransGen Move

theorem Moves.refl (p : Parsing) : Moves p p := Relation.ReflTransGen.refl

theorem Moves.trans {p q r : Parsing} (first : Moves p q) (second : Moves q r) : Moves p r :=
  Relation.ReflTransGen.trans first second

theorem Move.moves {p q : Parsing} (move : Move p q) : Moves p q := Relation.ReflTransGen.single move

theorem Moves.preserve {motive : Parsing → Prop} {p q : Parsing} (moves : Moves p q)
    (step : ∀ {a b : Parsing}, Move a b → motive a → motive b) (here : motive p) : motive q := by
  induction moves with
  | refl => exact here
  | tail _ move ih => exact step move ih

theorem moves_readFirst {operand : Reader} (inner : ∀ level p, Moves p (operand level p).2) {p : Parsing}
    (running : p.nestingExceeded = false) : Moves p (readFirst operand p).2 := by
  rcases readFirst_cases operand p with ⟨kind, _, same⟩ | ⟨kind, long, same⟩ | ⟨kind, same⟩ | ⟨kind, same⟩ <;>
    rw [same]
  · exact (Move.pass running (by rw [kind]; decide)).moves
  · exact (Move.refuse running (.numberTooLarge kind long)).moves
  · exact (Move.pass running (Token.Kind.ne_of_sign kind).1).moves.trans (inner _ _)
  · exact (Move.refuse running (.expectedExpression kind)).moves

theorem moves_of_continuation {level binding : Level} {p : Parsing} (next : p.continuation? level = some binding) :
    Moves p p.advance :=
  (Move.pass (running_of_continuation next) (live_of_continuation next)).moves

theorem moves_join {operand : Reader} (inner : ∀ level p, Moves p (operand level p).2) {level binding : Level}
    (left : Tree) {p : Parsing} (next : p.continuation? level = some binding) :
    Moves p (join operand binding left p).2 := by
  have passed := moves_of_continuation next
  by_cases loose : binding = .conditional
  · subst loose
    rw [join_conditional]
    exact passed.trans ((inner _ _).trans ((Move.divide _).moves.trans (inner _ _)))
  · rw [join_of_ne _ _ _ loose]
    exact passed.trans (inner _ _)

theorem moves_extend {operand : Reader} (inner : ∀ level p, Moves p (operand level p).2) (room : Nat)
    (level : Level) (left : Tree) (p : Parsing) : Moves p (extend operand room level left p).2 := by
  fun_induction extend operand room level left p with
  | case1 => exact .refl _
  | case2 => exact (Move.exceed _).moves
  | case3 left p binding next _ joined ih => exact (moves_join inner left next).trans ih

theorem moves_readExpression {operand : Reader} (inner : ∀ level p, Moves p (operand level p).2) (room : Nat)
    (level : Level) {p : Parsing} (running : p.nestingExceeded = false) :
    Moves p (readExpression operand room level p).2 := by
  have first := moves_readFirst inner running
  unfold readExpression
  split
  · rename_i q same
    rwa [same] at first
  · rename_i tree q same
    rw [same] at first
    exact first.trans (moves_extend inner room level tree q)

theorem parseWithin_succ {room : Nat} {level : Level} {p : Parsing} (running : p.nestingExceeded = false) :
    parseWithin (room + 1) level p =
      let read := readExpression (parseWithin room) room level p.descend
      (read.1, read.2.ascend) := by
  rw [parseWithin]
  simp [running]

theorem parseWithin_of_exceeded {room : Nat} {level : Level} {p : Parsing} (exceeded : p.nestingExceeded = true) :
    parseWithin room level p = (.placeholder p.current, p) := by
  cases room <;> simp [parseWithin, exceeded, exceedNesting]

theorem moves_parseWithin (room : Nat) (level : Level) (p : Parsing) : Moves p (parseWithin room level p).2 := by
  induction room generalizing level p with
  | zero => exact (Move.exceed p).moves
  | succ room ih =>
    by_cases running : p.nestingExceeded = false
    · rw [parseWithin_succ running]
      exact (Move.descend p).moves.trans
        ((moves_readExpression ih room level (p := p.descend) running).trans (Move.ascend _).moves)
    · rw [parseWithin_of_exceeded (by simpa using running)]
      exact .refl p

theorem parse_of_outermost {p : Parsing} (outermost : p.depth = 0) (level : Level) :
    p.parse level = parseWithin maxNesting level p := by
  rw [parse, outermost, Nat.sub_zero]

theorem moves_parse (level : Level) (p : Parsing) : Moves p (p.parse level).2 := moves_parseWithin _ level p

theorem reported_exceedNesting (p : Parsing) :
    p.exceedNesting.reported =
      p.reported ++ if p.nestingExceeded then [] else [⟨.nestedTooDeeply maxNesting, p.current⟩] := by
  unfold exceedNesting
  cases p.nestingExceeded with
  | true => simp
  | false =>
    simp only [Bool.false_eq_true, ite_false, reported_report]
    rfl

theorem reported_exceedNesting_of_running {p : Parsing} (running : p.nestingExceeded = false) :
    p.exceedNesting.reported = p.reported ++ [⟨.nestedTooDeeply maxNesting, p.current⟩] := by
  rw [reported_exceedNesting, running]
  rfl

theorem reported_prefix_consume (expected : Token.Kind) (message : String) (p : Parsing) :
    p.reported <+: (p.consume expected message).2.reported := by
  rcases consume_cases expected message p with ⟨_, same⟩ | ⟨_, _, same⟩ | ⟨_, _, same⟩
  · simp only [same, List.prefix_refl]
  · rw [same, reported_advance]
    exact List.prefix_append _ _
  · rw [same, reported_report]
    exact List.prefix_append _ _

theorem Moves.reported_prefix {p q : Parsing} (moves : Moves p q) : p.reported <+: q.reported := by
  refine moves.preserve (motive := fun q => p.reported <+: q.reported) ?_ (List.prefix_refl _)
  intro a b move grown
  refine grown.trans ?_
  cases move with
  | pass => exact reported_advance a ▸ List.prefix_append _ _
  | refuse =>
    rw [reported_report, reported_advance, List.append_assoc]
    exact List.prefix_append _ _
  | divide => exact reported_prefix_consume .colon dividerMessage a
  | exceed => exact reported_exceedNesting a ▸ List.prefix_append _ _
  | descend | ascend => exact List.prefix_refl _

theorem nestingExceeded_exceedNesting (p : Parsing) : p.exceedNesting.nestingExceeded = true := by
  unfold exceedNesting
  split
  · assumption
  · rw [nestingExceeded_report]

theorem current_exceedNesting (p : Parsing) : p.exceedNesting.current = p.current := by
  unfold exceedNesting
  split
  · rfl
  · rw [current_report]

theorem exceedNesting_of_exceeded {p : Parsing} (exceeded : p.nestingExceeded = true) : p.exceedNesting = p := by
  simp [exceedNesting, exceeded]

theorem exceedNesting_of_running {p : Parsing} (running : p.nestingExceeded = false) :
    p.exceedNesting = { p with nestingExceeded := true }.report ⟨.nestedTooDeeply maxNesting, p.current⟩ := by
  simp [exceedNesting, running]

theorem Moves.nestingExceeded {p q : Parsing} (moves : Moves p q) (exceeded : p.nestingExceeded = true) :
    q.nestingExceeded = true := by
  refine moves.preserve (motive := fun q => q.nestingExceeded = true) ?_ exceeded
  intro a b move exceeded
  cases move with
  | pass => simpa using exceeded
  | refuse => simpa using exceeded
  | divide =>
    rw [consume_of_exceeded exceeded]
    exact exceeded
  | exceed => exact nestingExceeded_exceedNesting a
  | descend | ascend => exact exceeded

/-- The current token is one that pulling leads to: never invalid, and at the end of the text always the same. -/
structure Settled (p : Parsing) : Prop where
  valid : p.current.kind ≠ .invalid
  still : p.current.kind = .endOfInput → p.scanner.pull = ⟨#[], p.current, p.scanner⟩

theorem Settled.of_pull {p : Parsing} {s : Scanner} (token : p.current = s.pull.token)
    (behind : p.scanner = s.pull.scanner) : p.Settled := by
  refine ⟨?_, fun stop => ?_⟩
  · rw [token]
    exact Scanner.kind_pull_ne_invalid s
  · rw [token] at stop
    rw [token, behind]
    exact Scanner.pull_of_pulled_end stop

theorem Settled.start (scanner : Scanner) : (start scanner).Settled :=
  .of_pull (s := scanner) (by simp [Parsing.start]) (by simp [Parsing.start])

theorem Settled.advance (p : Parsing) : p.advance.Settled :=
  .of_pull (current_advance p) (scanner_advance p)

theorem Settled.report {error : SyntaxError} {p : Parsing} (settled : p.Settled) : (p.report error).Settled :=
  ⟨by rw [current_report]; exact settled.valid, by rw [current_report, scanner_report]; exact settled.still⟩

theorem Settled.consume {expected : Token.Kind} {message : String} {p : Parsing} (settled : p.Settled) :
    (p.consume expected message).2.Settled := by
  rcases consume_cases expected message p with ⟨_, same⟩ | ⟨_, _, same⟩ | ⟨_, _, same⟩ <;> rw [same]
  · exact settled
  · exact Settled.advance _
  · exact settled.report

theorem Moves.settled {p q : Parsing} (moves : Moves p q) (settled : p.Settled) : q.Settled := by
  refine moves.preserve (motive := Settled) ?_ settled
  intro a b move settled
  cases move with
  | pass => exact .advance a
  | refuse => exact (Settled.advance a).report
  | divide => exact settled.consume
  | exceed =>
    unfold exceedNesting
    split
    · exact settled
    · exact Settled.report (p := { a with nestingExceeded := true }) ⟨settled.valid, settled.still⟩
  | descend | ascend => exact ⟨settled.valid, settled.still⟩

structure Recorded (p : Parsing) : Prop where
  first : p.errors[0]? = p.reported.head?
  hadError : p.hadError = false ↔ p.errors = #[]
  panicking : p.panicking = true → p.hadError = true

theorem Recorded.report {error : SyntaxError} {p : Parsing} (recorded : p.Recorded) :
    (p.report error).Recorded := by
  have first := recorded.first
  by_cases none : p.errors = #[]
  · have had := recorded.hadError.mpr none
    have calm : p.panicking ≠ true := fun panicking => by
      rw [recorded.panicking panicking] at had
      cases had
    rw [none] at first
    have nothing : p.reported = [] := List.head?_eq_none_iff.mp first.symm
    refine ⟨?_, by simp [Parsing.report, calm], by simp [Parsing.report, calm]⟩
    rw [reported_report, nothing]
    simp [Parsing.report, calm, none]
  · have size : 0 < p.errors.size := Array.size_pos_iff.mpr none
    have head : (p.report error).reported.head? = some p.errors[0] := by
      rw [reported_report, List.head?_append, ← first, Array.getElem?_eq_getElem size]
      rfl
    by_cases panicking : p.panicking = true
    · refine ⟨?_, ?_, ?_⟩
      · rw [head, ← Array.getElem?_eq_getElem size]
        simp only [Parsing.report, panicking, ite_true]
      · simpa only [Parsing.report, panicking, ite_true] using recorded.hadError
      · intro _
        simpa only [Parsing.report, panicking, ite_true] using recorded.panicking panicking
    · refine ⟨?_, by simp [Parsing.report, panicking], by simp [Parsing.report, panicking]⟩
      rw [head]
      simp only [Parsing.report, panicking, Bool.false_eq_true, ite_false]
      rw [Array.getElem?_push_lt size]

theorem Recorded.advance {p : Parsing} (recorded : p.Recorded) : p.advance.Recorded :=
  reportPassed_induction _ ⟨recorded.first, recorded.hadError, recorded.panicking⟩
    (fun _ _ _ recorded => recorded.report)

theorem Recorded.start (scanner : Scanner) : (start scanner).Recorded :=
  reportPassed_induction _ ⟨rfl, by simp, by simp⟩ (fun _ _ _ recorded => recorded.report)

theorem Recorded.consume {expected : Token.Kind} {message : String} {p : Parsing} (recorded : p.Recorded) :
    (p.consume expected message).2.Recorded := by
  rcases consume_cases expected message p with ⟨_, same⟩ | ⟨_, _, same⟩ | ⟨_, _, same⟩ <;> rw [same]
  · exact recorded
  · exact Recorded.advance ⟨recorded.first, recorded.hadError, by simp⟩
  · exact recorded.report

theorem Moves.recorded {p q : Parsing} (moves : Moves p q) (recorded : p.Recorded) : q.Recorded := by
  refine moves.preserve (motive := Recorded) ?_ recorded
  intro a b move recorded
  cases move with
  | pass => exact recorded.advance
  | refuse => exact recorded.advance.report
  | divide => exact recorded.consume
  | exceed =>
    unfold exceedNesting
    split
    · exact recorded
    · exact Recorded.report (p := { a with nestingExceeded := true })
        ⟨recorded.first, recorded.hadError, recorded.panicking⟩
  | descend | ascend => exact ⟨recorded.first, recorded.hadError, recorded.panicking⟩

end Parsing

end Arith
