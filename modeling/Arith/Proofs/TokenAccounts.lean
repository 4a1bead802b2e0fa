import Arith.Proofs.SessionHistory
import Arith.Proofs.TokensAhead
import Mathlib.Data.List.Nodup

namespace Arith

theorem SyntaxError.code?_syntactic {e : SyntaxError} (other : e.cause ≠ .lexical) :
    ∃ code ∈ ErrorCode.syntactic, e.code? = some code := by
  obtain ⟨cause, token⟩ := e
  cases cause with
  | lexical => exact absurd rfl other
  | missing expected message =>
    by_cases stop : expected = .endOfInput
    · exact ⟨.trailingInput, by decide, by rw [stop]; rfl⟩
    · refine ⟨.expectedToken, by decide, ?_⟩
      cases expected <;> first | rfl | exact absurd rfl stop
  | expectedExpression => exact ⟨.expectedExpression, by decide, rfl⟩
  | numberTooLarge => exact ⟨.numberTooLarge, by decide, rfl⟩
  | nestedTooDeeply => exact ⟨.nestedTooDeeply, by decide, rfl⟩

theorem SyntaxError.code?_ne_of_syntactic {e : SyntaxError} (other : e.cause ≠ .lexical) :
    e.code? ≠ some .unexpectedCharacter := by
  obtain ⟨code, listed, named⟩ := code?_syntactic other
  rw [named]
  rintro ⟨⟩
  revert listed
  decide

theorem Scanner.offset_scan_le (s : Scanner) : s.scan.1.location.offset ≤ s.scan.2.position.offset := by
  by_cases stop : s.scan.1.kind = .endOfInput
  · have place : s.scan.1.location.offset = s.scan.2.position.offset := by
      rw [scan, offset_readToken, readToken_of_end (s := s.skipWhitespace) stop]
    exact Int.le_of_eq place
  · exact Int.le_of_lt (offset_lt_position_readToken (s := s.skipWhitespace) stop)

theorem Scanner.offset_pull_le (s : Scanner) : s.pull.token.location.offset ≤ s.pull.scanner.position.offset := by
  induction s using pullInduction with
  | valid s valid =>
    rw [pull_of_valid valid]
    exact s.offset_scan_le
  | invalid s invalid ih => rwa [pull_of_invalid invalid]

namespace Parsing

def Reached (p : Parsing) : Prop := p.current.location.offset ≤ p.scanner.position.offset

theorem Reached.start (s : Scanner) : (start s).Reached := by
  simpa [Reached, Parsing.start] using s.offset_pull_le

theorem Reached.advance (p : Parsing) : p.advance.Reached := by
  rw [Reached, current_advance, scanner_advance]
  exact p.scanner.offset_pull_le

theorem Reached.report {p : Parsing} (reached : p.Reached) (error : SyntaxError) : (p.report error).Reached := by
  rwa [Reached, current_report, scanner_report]

theorem Turns.reached {p q : Parsing} (turns : Turns p q) (reached : p.Reached) : q.Reached := by
  refine turns.preserve (motive := Reached) ?_ reached
  intro a b turn reached
  cases turn with
  | advance => exact .advance a
  | refuse => exact (Reached.advance a).report _
  | consume expected message =>
    rcases consume_cases expected message a with ⟨_, same⟩ | ⟨_, _, same⟩ | ⟨_, _, same⟩ <;> rw [same]
    · exact reached
    · exact .advance _
    · exact reached.report _
  | exceed =>
    cases running : a.nestingExceeded with
    | true => rwa [exceedNesting_of_exceeded running]
    | false =>
      rw [exceedNesting_of_running running]
      exact Reached.report (p := { a with nestingExceeded := true }) reached _
  | descend | ascend => exact reached

section Cursor

variable {tokens front : List Token} {p : Parsing} (sorted : tokens.Pairwise (·.location.offset < ·.location.offset))
variable (split : tokens = front ++ p.ahead)

include sorted split in
theorem lt_cursor (reached : p.Reached) : ∀ t ∈ front, t.location.offset < p.scanner.position.offset := by
  obtain ⟨behind, ahead⟩ := head_ahead p
  rw [split, ahead] at sorted
  intro t member
  exact Int.lt_of_lt_of_le ((List.pairwise_append.mp sorted).2.2 t member _ List.mem_cons_self) reached

theorem eq_current {t : Token} (member : t ∈ p.ahead) (before : t.location.offset < p.scanner.position.offset) :
    t = p.current := by
  by_cases stop : p.current.kind = .endOfInput
  · rwa [ahead_of_end stop, List.mem_singleton] at member
  · rw [ahead_of_live stop] at member
    rcases List.mem_cons.mp member with same | later
    · exact same
    · exact absurd before (Int.not_lt_of_ge (p.scanner.position_le_offset_tokens t later))

end Cursor

def lexicalReports (p : Parsing) : List SyntaxError := p.reported.filter (·.code? = some .unexpectedCharacter)

theorem Stride.lexicalReports {p q : Parsing} {passed : List Token} {others : List SyntaxError}
    (stride : Stride p q passed others) : q.lexicalReports = p.lexicalReports ++ passed.map (⟨.lexical, ·⟩) := by
  have lexical : (passed.map (SyntaxError.mk .lexical)).filter (·.code? = some .unexpectedCharacter) =
      passed.map (⟨.lexical, ·⟩) := by
    apply List.filter_eq_self.mpr
    intro e member
    obtain ⟨t, inside, rfl⟩ := List.mem_map.mp member
    exact decide_eq_true (SyntaxError.code?_lexical (stride.invalid t inside).2)
  have none : others.filter (·.code? = some .unexpectedCharacter) = [] := by
    apply List.filter_eq_nil_iff.mpr
    intro e member
    simpa using SyntaxError.code?_ne_of_syntactic (stride.others e member)
  rw [Parsing.lexicalReports, stride.reported, List.filter_append, List.filter_append, lexical, none, List.append_nil]
  rfl

/-- Each invalid token of `tokens` has been reported or is still ahead, and all other reports are of another kind. -/
structure Accounted (tokens : List Token) (p : Parsing) : Prop where
  settled : p.Settled
  within : p.ahead <:+ tokens
  invalid : p.lexicalReports ++ (p.ahead.filter (·.kind = .invalid)).map (⟨.lexical, ·⟩) =
    (tokens.filter (·.kind = .invalid)).map (⟨.lexical, ·⟩)
  others : ∀ e ∈ p.reported, e.code? ≠ some .unexpectedCharacter → ∃ code ∈ ErrorCode.syntactic, e.code? = some code

namespace Accounted

variable {tokens : List Token} {p q : Parsing}

theorem start (s : Scanner) : Accounted s.tokens (start s) := by
  have split := tokens_eq_start s
  have reported := reported_start s
  have invalid : s.pull.passed.toList.filter (·.kind = .invalid) = s.pull.passed.toList :=
    List.filter_eq_self.mpr fun t member => decide_eq_true (s.kind_passed_pull t member)
  have lexical : ∀ e ∈ (Parsing.start s).reported, e.code? = some .unexpectedCharacter := by
    intro e member
    rw [reported] at member
    obtain ⟨t, passed, rfl⟩ := List.mem_map.mp member
    exact SyntaxError.code?_lexical (s.message_passed_pull t passed)
  refine ⟨.start s, ahead_start_suffix s, ?_, fun e member other => ?_⟩
  · rw [lexicalReports, List.filter_eq_self.mpr fun e member => decide_eq_true (lexical e member), reported, split,
      List.filter_append, List.map_append, invalid]
  · exact absurd (lexical e member) other

theorem stride {passed : List Token} {others : List SyntaxError} (accounted : Accounted tokens p)
    (stride : Stride p q passed others) (settled : q.Settled) : Accounted tokens q := by
  refine ⟨settled, stride.suffix.trans accounted.within, ?_, ?_⟩
  · have left : p.ahead.filter (·.kind = .invalid) = passed ++ q.ahead.filter (·.kind = .invalid) := by
      rcases stride.ahead with ⟨same, rfl⟩ | ⟨_, split⟩
      · rw [same, List.nil_append]
      · have all : passed.filter (·.kind = .invalid) = passed :=
          List.filter_eq_self.mpr fun t member => decide_eq_true (stride.invalid t member).1
        rw [split, List.filter_cons_of_neg (by simpa using accounted.settled.valid), List.filter_append, all]
    rw [stride.lexicalReports, ← accounted.invalid, left, List.map_append, List.append_assoc]
  · intro e member other
    rw [stride.reported] at member
    rcases List.mem_append.mp member with old | new
    · exact accounted.others e old other
    · rcases List.mem_append.mp new with lexical | syntactic
      · obtain ⟨t, inside, rfl⟩ := List.mem_map.mp lexical
        exact absurd (SyntaxError.code?_lexical (stride.invalid t inside).2) other
      · exact SyntaxError.code?_syntactic (stride.others e syntactic)

theorem turns (accounted : Accounted tokens p) (turns : Turns p q) : Accounted tokens q := by
  refine turns.preserve (motive := Accounted tokens) ?_ accounted
  intro a b turn accounted
  obtain ⟨passed, others, stride⟩ := turn.stride accounted.settled
  exact accounted.stride stride (turn.turns.settled accounted.settled)

theorem lexicalReports_eq (accounted : Accounted tokens p) (reached : p.Reached)
    (sorted : tokens.Pairwise (·.location.offset < ·.location.offset)) :
    p.lexicalReports =
      (tokens.filter fun (t : Token) => t.kind = .invalid ∧ t.location.offset < p.scanner.position.offset).map
        (⟨.lexical, ·⟩) := by
  obtain ⟨front, split⟩ := accounted.within
  have split := split.symm
  have behind : (front.filter fun (t : Token) => t.kind = .invalid ∧ t.location.offset < p.scanner.position.offset) =
      front.filter (·.kind = .invalid) := by
    apply List.filter_congr
    intro t member
    simp [lt_cursor sorted split reached t member]
  have ahead :
      (p.ahead.filter fun (t : Token) => t.kind = .invalid ∧ t.location.offset < p.scanner.position.offset) = [] := by
    apply List.filter_eq_nil_iff.mpr
    intro t member holds
    obtain ⟨invalid, before⟩ := of_decide_eq_true holds
    rw [eq_current member before] at invalid
    exact accounted.settled.valid invalid
  have all := accounted.invalid
  rw [split, List.filter_append, List.map_append] at all
  rw [split, List.filter_append, behind, ahead, List.append_nil]
  exact List.append_cancel_right all

theorem lexicalReports_eq_of_end (accounted : Accounted tokens p) (stop : p.current.kind = .endOfInput) :
    p.lexicalReports = (tokens.filter (·.kind = .invalid)).map (⟨.lexical, ·⟩) := by
  have valid : [p.current].filter (·.kind = .invalid) = [] :=
    List.filter_cons_of_neg (by simpa using accounted.settled.valid)
  have all := accounted.invalid
  rwa [ahead_of_end stop, valid, List.map_nil, List.append_nil] at all

end Accounted

/-- A way from `start` to `p`, turn by turn, with the tokens that were current on it: each is noted when it becomes the
current token. -/
inductive Visits (start : Parsing) : List Token → Parsing → Prop where
  | begin : Visits start [start.current] start
  | stay {visited : List Token} {p q : Parsing} (visits : Visits start visited p) (turn : Turn p q)
      (same : q.current = p.current) : Visits start visited q
  | next {visited : List Token} {p q : Parsing} (visits : Visits start visited p) (turn : Turn p q)
      (other : q.current ≠ p.current) : Visits start (visited ++ [q.current]) q

namespace Visits

variable {start p : Parsing} {visited : List Token}

theorem turns (visits : Visits start visited p) : Turns start p := by
  induction visits with
  | begin => exact Relation.ReflTransGen.refl
  | stay _ turn _ ih | next _ turn _ ih => exact ih.tail turn

theorem exists_of_turns (turns : Turns start p) : ∃ visited, Visits start visited p := by
  induction turns with
  | refl => exact ⟨_, .begin⟩
  | @tail q r _ turn ih =>
    obtain ⟨visited, visits⟩ := ih
    by_cases same : r.current = q.current
    · exact ⟨_, visits.stay turn same⟩
    · exact ⟨_, visits.next turn same⟩

theorem split (visits : Visits start visited p) (settled : start.Settled) (ascends : start.Ascends) :
    ∃ front, visited = front ++ [p.current] ∧
      start.ahead.filter (·.kind ≠ .invalid) = front ++ p.ahead.filter (·.kind ≠ .invalid) := by
  induction visits with
  | begin => exact ⟨[], rfl, rfl⟩
  | @stay visited p q visits turn same ih =>
    obtain ⟨front, log, tokens⟩ := ih
    obtain ⟨passed, others, stride⟩ := turn.stride (visits.turns.settled settled)
    rcases stride.ahead with ⟨ahead, _⟩ | ⟨_, ahead⟩
    · exact ⟨front, by rw [same, log], by rw [ahead, tokens]⟩
    · -- a step takes the parser to another token
      have order := ascends.of_suffix (visits.turns.ahead_suffix settled)
      obtain ⟨behind, next⟩ := head_ahead q
      rw [Ascends, ahead, next] at order
      have further := (List.pairwise_cons.mp order).1 q.current (List.mem_append_right _ List.mem_cons_self)
      rw [same] at further
      exact absurd further (Int.lt_irrefl _)
  | @next visited p q visits turn other ih =>
    obtain ⟨front, log, tokens⟩ := ih
    have valid := (visits.turns.settled settled).valid
    obtain ⟨passed, others, stride⟩ := turn.stride (visits.turns.settled settled)
    rcases stride.ahead with ⟨ahead, _⟩ | ⟨_, ahead⟩
    · exact absurd (List.cons.inj ahead).1 other
    · have none : passed.filter (·.kind ≠ .invalid) = [] :=
        List.filter_eq_nil_iff.mpr fun t member => by simp [(stride.invalid t member).1]
      refine ⟨visited, rfl, ?_⟩
      rw [tokens, log, ahead, List.filter_cons_of_pos (by simpa using valid), List.filter_append, none,
        List.nil_append, List.append_assoc, List.singleton_append]

theorem count_eq_one (visits : Visits start visited p) (settled : start.Settled) (ascends : start.Ascends) {t : Token}
    (member : t ∈ start.ahead) (valid : t.kind ≠ .invalid) (before : t.location.offset < p.scanner.position.offset) :
    visited.count t = 1 := by
  obtain ⟨front, log, tokens⟩ := visits.split settled ascends
  obtain ⟨behind, ahead⟩ := head_ahead p
  have current : p.current.kind ≠ .invalid := (visits.turns.settled settled).valid
  have inside : t ∈ visited := by
    have among : t ∈ start.ahead.filter (·.kind ≠ .invalid) := List.mem_filter.mpr ⟨member, decide_eq_true valid⟩
    rw [tokens] at among
    rw [log]
    rcases List.mem_append.mp among with past | later
    · exact List.mem_append_left _ past
    · rw [eq_current (List.mem_filter.mp later).1 before]
      exact List.mem_append_right _ (List.mem_singleton_self _)
  have distinct : start.ahead.Nodup := ascends.imp fun before same => by
    rw [same] at before
    exact Int.lt_irrefl _ before
  have nodup : (start.ahead.filter (·.kind ≠ .invalid)).Nodup := distinct.filter _
  rw [tokens, ahead, List.filter_cons_of_pos (by simpa using current), ← List.singleton_append, ← List.append_assoc,
    ← log] at nodup
  exact List.count_eq_one_of_mem nodup.of_append_left inside

end Visits

end Parsing

/-- No token that was read over is lost. The invalid ones in front of the cursor were reported one by one, recorded or
suppressed, and nothing else was reported as an unexpected character; every other one was the current token just
once. -/
theorem tokens_accounted (source filename : String) :
    let tokens := (tokenize source filename).toList
    let p := (Parsing.ofSource source filename).expression.2
    p.lexicalReports =
        (tokens.filter fun (t : Token) => t.kind = .invalid ∧ t.location.offset < p.scanner.position.offset).map
          (⟨.lexical, ·⟩) ∧
      (p.current.kind = .endOfInput →
        p.lexicalReports = (tokens.filter (·.kind = .invalid)).map (⟨.lexical, ·⟩)) ∧
      (∀ e ∈ p.reported, e.code? ≠ some .unexpectedCharacter → ∃ code ∈ ErrorCode.syntactic, e.code? = some code) ∧
      p.errors.toList = p.reports.toList.filterMap Report.recorded? ∧
      (∃ visited, Parsing.Visits (.ofSource source filename) visited p) ∧
      ∀ visited, Parsing.Visits (.ofSource source filename) visited p →
        ∀ t ∈ tokens, t.kind ≠ .invalid → t.location.offset < p.scanner.position.offset → visited.count t = 1 := by
  intro tokens p
  let s := Scanner.ofSource source filename
  have sorted := s.tokens_pairwise_offset
  have turns : (Parsing.start s).Turns p := Parsing.turns_expression (.start s)
  have accounted := (Parsing.Accounted.start s).turns turns
  have reached := turns.reached (.start s)
  have split := Parsing.tokens_eq_start s
  have ascends := Parsing.Ascends.start s
  refine ⟨accounted.lexicalReports_eq reached sorted, accounted.lexicalReports_eq_of_end, accounted.others, ?_,
    Parsing.Visits.exists_of_turns turns, fun visited visits t member valid before => ?_⟩
  · obtain ⟨reports, all, errors⟩ := turns.grows.recorded
    rw [errors, Parsing.errors_start, all, List.filterMap_append]
  · refine visits.count_eq_one (.start s) ascends ?_ valid before
    rw [show tokens = _ from split] at member
    rcases List.mem_append.mp member with passed | ahead
    · exact absurd (s.kind_passed_pull t passed) valid
    · exact ahead

end Arith
