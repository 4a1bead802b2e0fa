import Arith.Proofs.ScannerCursor
import Arith.Proofs.SideBySide

namespace Arith

namespace Scanner

theorem Reads.steps {s t : Scanner} (reads : s.Reads t) : s.Steps t := by
  induction reads with
  | refl => exact .refl _
  | tail _ next ih =>
    rw [next]
    exact ih.trans (steps_scan _)

/-- The scanners stand at one place, with texts before them that agree up to offset `k`, the character there included. -/
def Shares (k : Nat) (s t : Scanner) : Prop :=
  ∃ front behind behind', s.rest = front ++ behind ∧ t = { s with rest := front ++ behind' } ∧
    s.position.offset + front.length = k + 1

variable {k : Nat} {s t : Scanner}

theorem Shares.scan (shares : s.Shares k t) (bound : s.scan.2.position.offset ≤ k) :
    t.scan.1 = s.scan.1 ∧ s.scan.2.Shares k t.scan.2 := by
  obtain ⟨front, behind, behind', text, rfl, reach⟩ := shares
  obtain ⟨gap, taken, reading⟩ := s.reading_scan
  have offset : s.scan.2.position.offset = s.position.offset + (gap ++ taken).length := by
    rw [reading.position, ← Position.after_append, Position.offset_after]
  have split : (gap ++ taken) ++ s.scan.2.rest = front ++ behind := by
    rw [← text, reading.split, List.append_assoc]
  -- what was read is less than what the texts share
  obtain ⟨more, rfl⟩ : gap ++ taken <+: front := by
    apply List.prefix_of_prefix_length_le ⟨_, split⟩ (List.prefix_append front behind)
    omega
  have rest : s.scan.2.rest = more ++ behind := by
    rw [List.append_assoc _ more] at split
    exact List.append_cancel_left split
  rw [List.length_append] at reach
  have nonempty : more ≠ [] := by
    rintro rfl
    rw [List.length_nil] at reach
    omega
  have live : s.scan.1.kind ≠ .endOfInput := by
    intro stop
    have ended := (reading.munch.of_end stop).2
    rw [rest] at ended
    exact nonempty (List.append_eq_nil_iff.mp ended).1
  have apart : s.scan.1.kind = .number → ∀ c ∈ (more ++ behind').head?, isDigit c = false := by
    intro number
    obtain ⟨_, _, longest⟩ := reading.munch.of_number number
    rw [rest, List.head?_append_of_ne_nil _ nonempty] at longest
    rwa [List.head?_append_of_ne_nil _ nonempty]
  have there := (reading.exchange live apart).scan_eq
  rw [List.append_assoc, List.append_assoc gap, there]
  exact ⟨rfl, more, behind, behind', rest, rfl, by omega⟩

theorem Shares.pull (shares : s.Shares k t) (bound : s.pull.scanner.position.offset ≤ k) :
    t.pull = { s.pull with scanner := t.pull.scanner } ∧ s.pull.scanner.Shares k t.pull.scanner := by
  induction s using pullInduction generalizing t with
  | valid s valid =>
    rw [pull_of_valid valid] at bound ⊢
    obtain ⟨token, rest⟩ := shares.scan bound
    rw [pull_of_valid (by rwa [token]), token]
    exact ⟨rfl, rest⟩
  | invalid s invalid ih =>
    rw [pull_of_invalid invalid] at bound ⊢
    have earlier := (Reads.pull s.scan.2).steps.offset_le.trans bound
    obtain ⟨token, rest⟩ := shares.scan earlier
    obtain ⟨same, rest⟩ := ih rest bound
    rw [pull_of_invalid (by rwa [token]), token, same]
    exact ⟨rfl, rest⟩

end Scanner

namespace Parsing

def withScanner (p : Parsing) (scanner : Scanner) : Parsing := { p with scanner }

theorem report_withScanner (error : SyntaxError) (p : Parsing) (scanner : Scanner) :
    (p.withScanner scanner).report error = (p.report error).withScanner scanner := by
  unfold report
  rw [show (p.withScanner scanner).panicking = p.panicking from rfl]
  split <;> rfl

theorem reportPassed_withScanner (passed : Array Token) (p : Parsing) (scanner : Scanner) :
    reportPassed passed (p.withScanner scanner) = (reportPassed passed p).withScanner scanner := by
  rw [reportPassed_eq, reportPassed_eq]
  induction passed.toList generalizing p with
  | nil => rfl
  | cons token tokens ih => rw [List.foldl_cons, List.foldl_cons, report_withScanner, ih]

theorem advance_withScanner {p : Parsing} {scanner : Scanner}
    (same : scanner.pull = { p.scanner.pull with scanner := scanner.pull.scanner }) :
    (p.withScanner scanner).advance = p.advance.withScanner scanner.pull.scanner := by
  rw [advance, advance, ← reportPassed_withScanner, show (p.withScanner scanner).scanner = scanner from rfl, same]
  rfl

theorem start_withScanner {s t : Scanner} (same : t.pull = { s.pull with scanner := t.pull.scanner }) :
    start t = (start s).withScanner t.pull.scanner := by
  rw [start, start, ← reportPassed_withScanner, same]
  rfl

def Beside (k : Nat) (p q : Parsing) : Prop := ∃ scanner, q = p.withScanner scanner ∧ p.scanner.Shares k scanner

variable {k : Nat} {p q : Parsing}

theorem beside_start {s t : Scanner} (shares : s.Shares k t) (on : (start s).scanner.position.offset ≤ k) :
    Beside k (start s) (start t) := by
  have behind : (start s).scanner = s.pull.scanner := by rw [start, scanner_reportPassed]
  rw [behind] at on
  obtain ⟨same, rest⟩ := shares.pull on
  exact ⟨_, start_withScanner same, by rwa [behind]⟩

namespace Beside

theorem report (both : Beside k p q) (error : SyntaxError) : Beside k (p.report error) (q.report error) := by
  obtain ⟨scanner, rfl, shares⟩ := both
  exact ⟨scanner, report_withScanner error p scanner, by rwa [scanner_report]⟩

theorem current (both : Beside k p q) : q.current = p.current := by
  obtain ⟨_, rfl, _⟩ := both
  rfl

theorem nestingExceeded (both : Beside k p q) : q.nestingExceeded = p.nestingExceeded := by
  obtain ⟨_, rfl, _⟩ := both
  rfl

theorem reportCurrent {p' q' : Parsing} (both : Beside k p q) (next : Beside k p' q') (cause : SyntaxError.Cause) :
    Beside k (p'.report ⟨cause, p.current⟩) (q'.report ⟨cause, q.current⟩) := by
  rw [both.current]
  exact next.report _

theorem advance (both : Beside k p q) (on : p.advance.scanner.position.offset ≤ k) : Beside k p.advance q.advance := by
  obtain ⟨scanner, rfl, shares⟩ := both
  rw [scanner_advance] at on
  obtain ⟨same, rest⟩ := shares.pull on
  exact ⟨_, advance_withScanner same, by rwa [scanner_advance]⟩

theorem consume (expected : Token.Kind) (message : String) (both : Beside k p q)
    (on : (p.consume expected message).2.scanner.position.offset ≤ k) :
    Beside k (p.consume expected message).2 (q.consume expected message).2 := by
  have kind := congrArg Token.kind both.current.symm
  rcases consume_cases_both expected message kind both.nestingExceeded.symm with
    ⟨here, there⟩ | ⟨here, there⟩ | ⟨here, there⟩ <;> rw [here] at on ⊢ <;> rw [there]
  · exact both
  · apply advance _ on
    obtain ⟨scanner, rfl, shares⟩ := both
    exact ⟨scanner, rfl, shares⟩
  · exact both.reportCurrent both _

theorem exceed (both : Beside k p q) : Beside k p.exceedNesting q.exceedNesting := by
  rcases exceedNesting_cases_both both.nestingExceeded.symm with ⟨here, there⟩ | ⟨here, there⟩ <;> rw [here, there]
  · exact both
  · apply both.reportCurrent
    obtain ⟨scanner, rfl, shares⟩ := both
    exact ⟨scanner, rfl, shares⟩

theorem inStep : InStepWhile (·.scanner.position.offset ≤ k) id (Beside k) where
  earlier turns on := turns.reads.steps.offset_le.trans on
  current both := congrArg (Token.relocate id) both.current.symm
  nestingExceeded both := both.nestingExceeded.symm
  depth := by
    rintro p _ ⟨_, rfl, _⟩
    rfl
  advance := advance
  refuse both _ on := by
    rw [scanner_report] at on
    exact both.reportCurrent (both.advance on) _
  consume := consume
  exceed both _ := both.exceed
  descend := by
    rintro p _ ⟨scanner, rfl, shares⟩ _
    exact ⟨scanner, rfl, shares⟩
  ascend := by
    rintro p _ ⟨scanner, rfl, shares⟩ _
    exact ⟨scanner, rfl, shares⟩

end Beside

end Parsing

theorem within_expression (source filename : String) :
    Scanner.Within source.toList filename (Parsing.ofSource source filename).expression.2.scanner := by
  have reads := (Parsing.reads_start (.ofSource source filename)).trans (Parsing.turns_expression _).reads
  exact reads.steps.within (Scanner.within_ofSource source filename)

theorem shares_ofSource {source source' : String} {k : Nat} (filename : String) (unread : k < source.length)
    (agrees : source'.toList.take (k + 1) = source.toList.take (k + 1)) :
    (Scanner.ofSource source filename).Shares k (.ofSource source' filename) := by
  refine ⟨source.toList.take (k + 1), source.toList.drop (k + 1), source'.toList.drop (k + 1), ?_, ?_, ?_⟩
  · exact (List.take_append_drop _ _).symm
  · rw [← agrees, List.take_append_drop]
    rfl
  · rw [List.length_take, String.length_toList]
    show 0 + min (k + 1) source.length = k + 1
    omega

/-- A parser that stops at offset `k`, before the end of its text, does the same with every text that agrees with its
own up to the character there. -/
theorem unread_text_irrelevant (source source' filename : String) (k : Nat)
    (stops : (Parsing.ofSource source filename).expression.2.scanner.position.offset = k) (unread : k < source.length)
    (agrees : source'.toList.take (k + 1) = source.toList.take (k + 1)) :
    let read := (Parsing.ofSource source filename).expression
    let other := (Parsing.ofSource source' filename).expression
    other.1 = read.1 ∧
      other.2 = { read.2 with scanner := { read.2.scanner with rest := source'.toList.drop k } } := by
  intro read other
  have on : (Parsing.ofSource source filename).scanner.position.offset ≤ k :=
    stops ▸ (Parsing.turns_expression _).reads.steps.offset_le
  have start : Parsing.Beside k (.ofSource source filename) (.ofSource source' filename) :=
    Parsing.beside_start (shares_ofSource filename unread agrees) on
  have agree : Parsing.Agree id (Parsing.Beside k) read other :=
    Parsing.agree_expression_while Parsing.Beside.inStep start (Nat.le_of_eq stops)
  obtain ⟨tree, scanner, same, _, _, _, _, left, _⟩ := agree
  rw [Tree.relocate_id, Tree.relocate_id] at tree
  have rest : scanner.rest = source'.toList.drop k := by
    have whole := (within_expression source' filename).rest
    have offset : scanner.position.offset = k := by
      rw [left]
      exact stops
    change other.2.scanner.rest = source'.toList.drop other.2.scanner.position.offset at whole
    rwa [same, show (read.2.withScanner scanner).scanner = scanner from rfl, offset] at whole
  refine ⟨tree.symm, ?_⟩
  rw [same, ← rest, left]
  rfl

theorem unread_text_irrelevant_trailing_number :
    let read := (Parsing.ofSource "1 ? $2 : 3 4 +5" "<input>").expression
    let other := (Parsing.ofSource "1 ? $2 : 3 4 7:%" "<input>").expression
    read.2.errors.size = 2 ∧ other.1 = read.1 ∧
      other.2 = { read.2 with scanner := { read.2.scanner with rest := [' ', '7', ':', '%'] } } :=
  ⟨by decide +kernel,
    unread_text_irrelevant "1 ? $2 : 3 4 +5" "1 ? $2 : 3 4 7:%" "<input>" 12 (by decide +kernel) (by decide +kernel)
      (by decide +kernel)⟩

end Arith
