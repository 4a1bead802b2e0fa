import Arith.Proofs.ParserInvariants
import Arith.Proofs.SideBySide
import Arith.Proofs.TokenTiling

namespace Arith

/-- The text with a space in the place of every character that an invalid token stands for. -/
def blanked (source filename : String) : String :=
  let tokens := tokenize source filename
  String.ofList (source.toList.mapIdx fun k c =>
    if ∃ t ∈ tokens, t.kind = .invalid ∧ t.location.offset = k then ' ' else c)

def unstray (c : Char) : Char := if isStray c then ' ' else c

theorem unstray_of_stray {c : Char} (stray : isStray c = true) : unstray c = ' ' := by simp [unstray, stray]

theorem unstray_of_not_stray {c : Char} (other : isStray c = false) : unstray c = c := by simp [unstray, other]

theorem not_stray_of_digit {c : Char} (digit : isDigit c = true) : isStray c = false := by simp [isStray, digit]

theorem not_stray_of_whitespace {c : Char} (white : isWhitespace c = true) : isStray c = false := by
  simp [isStray, white]

theorem not_stray_of_operator {c : Char} {kind : Token.Kind} (found : Token.Kind.ofOperator? c = some kind) :
    isStray c = false := by
  simp [isStray, found]

theorem not_digit_unstray {c : Char} (other : isDigit c = false) : isDigit (unstray c) = false := by
  unfold unstray
  split
  · decide
  · exact other

theorem map_unstray {text : List Char} (others : ∀ c ∈ text, isStray c = false) : text.map unstray = text := by
  rw [List.map_congr_left (fun c member => unstray_of_not_stray (others c member)), List.map_id']

theorem Position.step_of_stray {c : Char} (stray : isStray c = true) (p : Position) : p.step c = p.step ' ' := by
  have other : c ≠ '\n' := by
    rintro rfl
    revert stray
    decide
  simp [Position.step, other]

namespace Munch

variable {taken behind : List Char} {kind : Token.Kind} {lexeme : String}

theorem not_stray (munch : Munch taken behind kind lexeme) (valid : kind ≠ .invalid) : ∀ c ∈ taken, isStray c = false := by
  cases munch with
  | endOfInput => simp
  | number _ digits => exact fun c member => not_stray_of_digit (digits c member)
  | operator found => simpa using not_stray_of_operator found
  | invalid => exact absurd rfl valid

theorem unstray (munch : Munch taken behind kind lexeme) (valid : kind ≠ .invalid) :
    Munch taken (behind.map unstray) kind lexeme := by
  cases munch with
  | endOfInput => exact .endOfInput
  | number some digits longest =>
    refine .number some digits fun c first => ?_
    rw [List.head?_map] at first
    obtain ⟨d, head, rfl⟩ := Option.map_eq_some_iff.mp first
    exact not_digit_unstray (longest d head)
  | operator found => exact .operator found
  | invalid => exact absurd rfl valid

end Munch

theorem Tiles.invalid_iff_stray {text : List Char} {tokens : List Token} (tiles : Tiles text 0 tokens) {k : Nat} {c : Char}
    (found : text[k]? = some c) :
    (∃ t ∈ tokens, t.kind = .invalid ∧ t.location.offset = k) ↔ isStray c = true := by
  constructor
  · rintro ⟨t, member, invalid, offset⟩
    obtain ⟨_, front, taken, behind, split, place, munch⟩ := tiles.stands t member
    obtain ⟨d, rfl, stray⟩ := munch.of_invalid invalid
    have here : k = front.length := by omega
    rw [here, split, List.getElem?_append_right (Nat.le_refl _), Nat.sub_self] at found
    cases found
    exact stray
  · intro stray
    by_contra none
    have white := tiles.blank k c (Nat.zero_le k) found ?_
    · rw [not_stray_of_whitespace white] at stray
      cases stray
    · intro t member covers
      obtain ⟨_, front, taken, behind, split, place, munch⟩ := tiles.stands t member
      have wide := munch.width_eq
      obtain ⟨reached, below⟩ := covers
      have inside : k - front.length < taken.length := by omega
      have there : c ∈ taken := by
        rw [split, List.getElem?_append_right (by omega), List.getElem?_append_left inside] at found
        exact List.mem_of_getElem? found
      by_cases invalid : t.kind = .invalid
      · obtain ⟨d, rfl, _⟩ := munch.of_invalid invalid
        rw [List.length_singleton] at inside
        exact none ⟨t, member, invalid, by omega⟩
      · rw [munch.not_stray invalid c there] at stray
        cases stray

theorem toList_blanked (source filename : String) : (blanked source filename).toList = source.toList.map unstray := by
  have tiles := Scanner.tiles_tokenize source filename
  rw [blanked, String.toList_ofList]
  refine List.ext_getElem? fun k => ?_
  rw [List.getElem?_mapIdx, List.getElem?_map]
  cases found : source.toList[k]? with
  | none => rfl
  | some c =>
    have same := tiles.invalid_iff_stray found
    simp only [Array.mem_toList_iff] at same
    simp [unstray, ← same]

example : blanked "1 $+ é2" "" = "1  +  2" := by decide +kernel

namespace Scanner

def blanked (s : Scanner) : Scanner := { s with rest := s.rest.map unstray }

theorem ofSource_blanked (source filename : String) :
    ofSource (Arith.blanked source filename) filename = (ofSource source filename).blanked := by
  rw [ofSource, toList_blanked]
  rfl

variable {s : Scanner}

theorem scan_blanked_of_valid (valid : s.scan.1.kind ≠ .invalid) : s.blanked.scan = (s.scan.1, s.scan.2.blanked) := by
  obtain ⟨gap, taken, reading⟩ := s.reading_scan
  have moved : Reading s.blanked gap taken s.scan.1 s.scan.2.blanked := by
    refine ⟨reading.blank, ?_, reading.munch.unstray valid, reading.message, reading.location, reading.filename,
      reading.position, reading.tokenStart⟩
    have gap_same := map_unstray fun c member => not_stray_of_whitespace (reading.blank c member)
    have taken_same := map_unstray (reading.munch.not_stray valid)
    simp only [blanked, reading.split, List.map_append, gap_same, taken_same]
  exact moved.scan_eq

theorem scan_blanked_of_invalid (invalid : s.scan.1.kind = .invalid) : s.blanked.scan = s.scan.2.blanked.scan := by
  obtain ⟨gap, taken, reading⟩ := s.reading_scan
  obtain ⟨c, rfl, stray⟩ := reading.munch.of_invalid invalid
  obtain ⟨gap', taken', behind⟩ := s.scan.2.blanked.reading_scan
  have gap_same := map_unstray fun c member => not_stray_of_whitespace (reading.blank c member)
  -- the space is skipped along with the whitespace in front of it and behind it
  have blank : ∀ c ∈ gap ++ [' '], isWhitespace c = true :=
    List.forall_mem_append.mpr ⟨reading.blank, List.forall_mem_singleton.mpr (by decide)⟩
  have rest : s.blanked.rest = (gap ++ [' ']) ++ s.scan.2.blanked.rest := by
    simp only [blanked, reading.split, List.map_append, List.map_cons, List.map_nil, gap_same, unstray_of_stray stray,
      List.append_assoc]
  have position : s.scan.2.blanked.position = s.blanked.position.after (gap ++ [' ']) := by
    rw [Position.after_append, Position.after_cons, Position.after_nil, ← Position.step_of_stray stray]
    exact reading.position
  exact (behind.skip blank rest reading.filename position).scan_eq

theorem exists_invalid_of_passed (s : Scanner) (some : s.pull.passed ≠ #[]) :
    ∃ t ∈ s.pull.passed, t.kind = .invalid := by
  obtain ⟨t, member⟩ := Array.exists_mem_of_ne_empty _ some
  exact ⟨t, member, s.kind_passed_pull t (Array.mem_toList_iff.mpr member)⟩

theorem pull_eq_of_scan_eq {s t : Scanner} (same : s.scan = t.scan) : s.pull = t.pull := by
  by_cases invalid : t.scan.1.kind = .invalid
  · rw [pull_of_invalid invalid, pull_of_invalid (by rwa [same]), same]
  · rw [pull_of_valid invalid, pull_of_valid (by rwa [same]), same]

theorem pull_blanked (s : Scanner) : s.blanked.pull = ⟨#[], s.pull.token, s.pull.scanner.blanked⟩ := by
  induction s using pullInduction with
  | valid s valid =>
    have same := scan_blanked_of_valid valid
    rw [pull_of_valid valid, pull_of_valid (by rwa [same]), same]
  | invalid s invalid ih =>
    rw [pull_eq_of_scan_eq (scan_blanked_of_invalid invalid), ih, pull_of_invalid invalid]

end Scanner

namespace Parsing

def MetInvalid (p : Parsing) : Prop := ∃ t ∈ p.received, t.kind = .invalid

/-- The errors other than those about stray characters. -/
def syntactic (p : Parsing) : List SyntaxError := p.errors.toList.filter (·.code? ≠ some .unexpectedCharacter)

theorem hadError_report {p : Parsing} (alarmed : p.panicking = true → p.hadError = true) (error : SyntaxError) :
    (p.report error).hadError = true := by
  unfold report
  split
  · rename_i panics
    exact alarmed panics
  · rfl

theorem panicking_reportPassed {passed : Array Token} (some : passed ≠ #[]) (p : Parsing) :
    (reportPassed passed p).panicking = true := by
  have more : passed.toList ≠ [] := by simpa using some
  rw [reportPassed_eq, ← List.dropLast_append_getLast more, List.foldl_append]
  exact panicking_report _ _

/-- `p` reads a text with stray characters and `q` one with spaces in their places, and both came to the same token. -/
structure Shadows (p q : Parsing) : Prop where
  previous : p.previous = q.previous
  current : p.current = q.current
  nestingExceeded : p.nestingExceeded = q.nestingExceeded
  depth : p.depth = q.depth
  scanner : q.scanner = p.scanner.blanked
  panicking : q.panicking = true → p.panicking = true
  alarmed : p.panicking = true → p.hadError = true
  errors : p.syntactic.Sublist q.errors.toList
  sooner : q.hadError = true → p.hadError = true
  cause : p.hadError = true → q.hadError = true ∨ p.MetInvalid

namespace Shadows

variable {p q : Parsing}

theorem calm (shadows : Shadows p q) (calm : p.panicking = false) : q.panicking = false := by
  cases panics : q.panicking with
  | false => rfl
  | true => rw [← calm, shadows.panicking panics]

theorem report (shadows : Shadows p q) (error : SyntaxError) : Shadows (p.report error) (q.report error) := by
  have grows := Grows.report error q
  have had := hadError_report shadows.alarmed error
  refine ⟨by simpa using shadows.previous, by simpa using shadows.current, by simpa using shadows.nestingExceeded,
    by simpa using shadows.depth, by simpa using shadows.scanner, fun _ => panicking_report _ p, fun _ => had, ?_,
    fun _ => had, fun _ => ?_⟩
  · cases panics : p.panicking with
    | true =>
      obtain ⟨reports, _, errors⟩ := grows.recorded
      rw [syntactic, (report_of_panicking panics error).1, errors]
      exact shadows.errors.trans (List.sublist_append_left _ _)
    | false =>
      rw [syntactic, (report_of_calm panics error).1, (report_of_calm (shadows.calm panics) error).1,
        Array.toList_push, Array.toList_push, List.filter_append]
      exact shadows.errors.append List.filter_sublist
  · rw [MetInvalid, received_report]
    cases panics : p.panicking with
    | true => exact (shadows.cause (shadows.alarmed panics)).imp grows.hadError id
    | false => exact .inl (by simp [Parsing.report, shadows.calm panics])

theorem reportStray (shadows : Shadows p q) {token : Token} (met : p.MetInvalid)
    (message : token.lexeme = unexpectedCharacter) : Shadows (p.report ⟨.lexical, token⟩) q := by
  have had := hadError_report shadows.alarmed ⟨.lexical, token⟩
  refine ⟨by simpa using shadows.previous, by simpa using shadows.current, by simpa using shadows.nestingExceeded,
    by simpa using shadows.depth, by simpa using shadows.scanner, fun _ => panicking_report _ p, fun _ => had, ?_,
    fun _ => had, fun _ => .inr ?_⟩
  · -- whether it is recorded or not, it is no syntax error
    have code := SyntaxError.code?_lexical message
    have errors := shadows.errors
    unfold syntactic at errors ⊢
    cases panics : p.panicking with
    | true => rwa [(report_of_panicking panics _).1]
    | false => simpa [(report_of_calm panics _).1, List.filter_append, code] using errors
  · rwa [MetInvalid, received_report]

theorem reportPassed (shadows : Shadows p q) {passed : Array Token} (met : passed ≠ #[] → p.MetInvalid)
    (messages : ∀ t ∈ passed.toList, t.lexeme = unexpectedCharacter) : Shadows (reportPassed passed p) q := by
  have some : ∀ t ∈ passed.toList, p.MetInvalid := fun t member => met (by rintro rfl; simp at member)
  refine (reportPassed_induction (motive := fun r => Shadows r q ∧ r.received = p.received) passed ⟨shadows, rfl⟩
    fun r t member here => ?_).1
  obtain ⟨shadows, received⟩ := here
  have met : r.MetInvalid := by
    rw [MetInvalid, received]
    exact some t member
  exact ⟨shadows.reportStray met (messages t member), (received_report _ r).trans received⟩

theorem start (s : Scanner) : Shadows (start s) (Parsing.start s.blanked) := by
  rw [Parsing.start, Parsing.start, Scanner.pull_blanked]
  refine reportPassed ?_ (fun some => ?_) s.message_passed_pull
  · have calm {later : Prop} (panics : false = true) : later := absurd panics Bool.false_ne_true
    exact ⟨rfl, rfl, rfl, rfl, rfl, calm, calm, List.nil_sublist _, calm, calm⟩
  · obtain ⟨t, member, invalid⟩ := s.exists_invalid_of_passed some
    exact ⟨t, Array.mem_push.mpr (.inl member), invalid⟩

theorem advance (shadows : Shadows p q) : Shadows p.advance q.advance := by
  rw [Parsing.advance, Parsing.advance, shadows.scanner, Scanner.pull_blanked]
  refine reportPassed ?_ (fun some => ?_) p.scanner.message_passed_pull
  · refine ⟨congrArg some shadows.current, rfl, shadows.nestingExceeded, shadows.depth, rfl, shadows.panicking,
      shadows.alarmed, shadows.errors, shadows.sooner, fun had => (shadows.cause had).imp id ?_⟩
    rintro ⟨t, member, invalid⟩
    exact ⟨t, Array.mem_push.mpr (.inl (Array.mem_append_left _ member)), invalid⟩
  · obtain ⟨t, member, invalid⟩ := p.scanner.exists_invalid_of_passed some
    exact ⟨t, Array.mem_push.mpr (.inl (Array.mem_append_right _ member)), invalid⟩

theorem reportCurrent (shadows : Shadows p q) {p' q' : Parsing} (both : Shadows p' q') (cause : SyntaxError.Cause) :
    Shadows (p'.report ⟨cause, p.current⟩) (q'.report ⟨cause, q.current⟩) := by
  rw [← shadows.current]
  exact both.report _

theorem consume (shadows : Shadows p q) (expected : Token.Kind) (message : String) :
    Shadows (p.consume expected message).2 (q.consume expected message).2 := by
  have kind := congrArg Token.kind shadows.current
  rcases consume_cases_both expected message kind shadows.nestingExceeded with
    ⟨here, there⟩ | ⟨here, there⟩ | ⟨here, there⟩ <;> rw [here, there]
  · exact shadows
  · exact advance ⟨shadows.previous, shadows.current, shadows.nestingExceeded, shadows.depth, shadows.scanner, nofun, nofun,
      shadows.errors, shadows.sooner, shadows.cause⟩
  · exact shadows.reportCurrent shadows _

theorem exceed (shadows : Shadows p q) : Shadows p.exceedNesting q.exceedNesting := by
  rcases exceedNesting_cases_both shadows.nestingExceeded with ⟨here, there⟩ | ⟨here, there⟩ <;> rw [here, there]
  · exact shadows
  · apply shadows.reportCurrent
    exact ⟨shadows.previous, shadows.current, rfl, shadows.depth, shadows.scanner, shadows.panicking, shadows.alarmed,
      shadows.errors, shadows.sooner, shadows.cause⟩

theorem atDepth (shadows : Shadows p q) (depth deepest deepest' : Nat) :
    Shadows { p with depth := depth, deepest := deepest } { q with depth := depth, deepest := deepest' } :=
  ⟨shadows.previous, shadows.current, shadows.nestingExceeded, rfl, shadows.scanner, shadows.panicking, shadows.alarmed,
    shadows.errors, shadows.sooner, shadows.cause⟩

theorem inStep : InStep id Shadows where
  current shadows := congrArg (Token.relocate id) shadows.current
  nestingExceeded := Shadows.nestingExceeded
  depth := Shadows.depth
  advance := Shadows.advance
  refuse {p q cause} shadows _ := by
    rw [← shadows.current]
    exact shadows.advance.report _
  consume expected message shadows := shadows.consume expected message
  exceed := Shadows.exceed
  descend {p q} shadows := by
    rw [descend, descend, ← shadows.depth]
    exact shadows.atDepth _ _ _
  ascend {p q} shadows := by
    rw [ascend, ascend, ← shadows.depth]
    exact shadows.atDepth _ _ _

end Shadows

theorem metInvalid_advance {p : Parsing} (met : p.advance.MetInvalid) :
    p.MetInvalid ∨ p.scanner.pull.passed ≠ #[] := by
  obtain ⟨t, member, invalid⟩ := met
  simp only [advance, received_reportPassed, Array.mem_push, Array.mem_append] at member
  rcases member with (before | passed) | rfl
  · exact .inl ⟨t, before, invalid⟩
  · exact .inr (Array.ne_empty_of_mem passed)
  · exact absurd invalid p.scanner.kind_pull_ne_invalid

structure Alert (p : Parsing) : Prop where
  consistent : p.Consistent
  hadError : p.MetInvalid → p.hadError = true

theorem Alert.start (s : Scanner) : (start s).Alert := by
  refine ⟨consistent_start s, fun met => (consistent_start s).panicking (panicking_reportPassed ?_ _)⟩
  obtain ⟨t, member, invalid⟩ := met
  simp only [Parsing.start, received_reportPassed, Array.mem_push] at member
  rcases member with passed | rfl
  · exact Array.ne_empty_of_mem passed
  · exact absurd invalid s.kind_pull_ne_invalid

theorem hadError_advance {p : Parsing} (before : p.MetInvalid → p.hadError = true) (consistent : p.advance.Consistent)
    (met : p.advance.MetInvalid) : p.advance.hadError = true := by
  rcases metInvalid_advance met with early | passed
  · exact (Grows.advance p).hadError (before early)
  · exact consistent.panicking (panicking_reportPassed passed _)

theorem hadError_consume {p : Parsing} (alert : p.Alert) (expected : Token.Kind) (message : String)
    (met : (p.consume expected message).2.MetInvalid) : (p.consume expected message).2.hadError = true := by
  have consistent := consistent_consume expected message alert.consistent
  rcases consume_cases expected message p with ⟨_, same⟩ | ⟨_, _, same⟩ | ⟨_, _, same⟩ <;>
    rw [same] at consistent met ⊢
  · exact alert.hadError met
  · exact hadError_advance (p := { p with panicking := false }) alert.hadError consistent met
  · exact hadError_report alert.consistent.panicking _

theorem Turns.alert {p q : Parsing} (turns : Turns p q) (alert : p.Alert) : q.Alert := by
  refine turns.preserve (motive := Alert) ?_ alert
  intro a b turn alert
  have consistent : b.Consistent := turn.turns.consistent alert.consistent
  refine ⟨consistent, ?_⟩
  cases turn with
  | advance => exact hadError_advance alert.hadError consistent
  | refuse => exact fun _ => hadError_report (consistent_advance alert.consistent).panicking _
  | consume expected message => exact hadError_consume alert expected message
  | exceed => exact fun _ => consistent.panicking (consistent.nestingExceeded (nestingExceeded_exceedNesting a))
  | descend | ascend => exact alert.hadError

end Parsing

/-- Stray characters have no part in the tree, nor in where the parser comes to stand. -/
theorem expression_blanked (source filename : String) :
    let read := (Parsing.ofSource source filename).expression
    let clean := (Parsing.ofSource (blanked source filename) filename).expression
    read.1 = clean.1 ∧ read.2.previous = clean.2.previous ∧ read.2.current = clean.2.current ∧
      read.2.nestingExceeded = clean.2.nestingExceeded ∧ read.2.scanner.position = clean.2.scanner.position ∧
      read.2.scanner.tokenStart = clean.2.scanner.tokenStart ∧
      (read.2.errors.toList.filter (·.code? ≠ some .unexpectedCharacter)).Sublist clean.2.errors.toList ∧
      (read.2.hadError = true ↔ clean.2.hadError = true ∨ ∃ t ∈ read.2.received, t.kind = .invalid) := by
  intro read clean
  have start : Parsing.Shadows (.ofSource source filename) (.ofSource (blanked source filename) filename) := by
    rw [Parsing.ofSource, Parsing.ofSource, Scanner.ofSource_blanked]
    exact .start _
  obtain ⟨tree, shadows⟩ := Parsing.agree_expression Parsing.Shadows.inStep start
  have alert : read.2.Alert := (Parsing.turns_expression _).alert (.start _)
  rw [Tree.relocate_id, Tree.relocate_id] at tree
  have scanner : clean.2.scanner = read.2.scanner.blanked := shadows.scanner
  refine ⟨tree, shadows.previous, shadows.current, shadows.nestingExceeded, by rw [scanner]; rfl,
    by rw [scanner]; rfl, shadows.errors, shadows.cause, ?_⟩
  rintro (sooner | met)
  · exact shadows.sooner sooner
  · exact alert.hadError met

end Arith
