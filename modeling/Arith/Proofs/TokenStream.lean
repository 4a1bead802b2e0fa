import Arith.Scanner

namespace Arith.Scanner

/-- The tokens that are left, the end token last. -/
def tokens (s : Scanner) : List Token := s.tokenize.1.toList

@[elab_as_elim]
theorem scanInduction {motive : Scanner → Prop}
    (ended : ∀ s, s.scan.1.kind = .endOfInput → motive s)
    (more : ∀ s, s.scan.1.kind ≠ .endOfInput → motive s.scan.2 → motive s) (s : Scanner) : motive s := by
  induction length : s.rest.length using Nat.strongRecOn generalizing s with
  | ind n ih =>
    by_cases stop : s.scan.1.kind = .endOfInput
    · exact ended s stop
    · have shorter := length_rest_scan stop
      rw [length] at shorter
      exact more s stop (ih _ shorter s.scan.2 rfl)

theorem tokenizeOnto_of_end (found : Array Token) {s : Scanner} (stop : s.scan.1.kind = .endOfInput) :
    s.tokenizeOnto found = (found.push s.scan.1, s.scan.2) := by
  rw [tokenizeOnto]
  simp only [stop, dite_true]

theorem tokenizeOnto_of_more (found : Array Token) {s : Scanner} (more : s.scan.1.kind ≠ .endOfInput) :
    s.tokenizeOnto found = s.scan.2.tokenizeOnto (found.push s.scan.1) := by
  rw [tokenizeOnto]
  simp only [more, dite_false]

theorem toList_tokenizeOnto (found : Array Token) (s : Scanner) :
    (s.tokenizeOnto found).1.toList = found.toList ++ s.tokens := by
  induction s using scanInduction generalizing found with
  | ended s stop =>
    rw [tokens, tokenize, tokenizeOnto_of_end _ stop, tokenizeOnto_of_end _ stop]
    simp only [Array.toList_push, List.nil_append]
  | more s stop ih =>
    rw [tokens, tokenize, tokenizeOnto_of_more _ stop, tokenizeOnto_of_more _ stop, ih, ih]
    simp only [Array.toList_push, List.nil_append, List.append_assoc]

theorem tokens_of_end {s : Scanner} (stop : s.scan.1.kind = .endOfInput) : s.tokens = [s.scan.1] := by
  rw [tokens, tokenize, tokenizeOnto_of_end _ stop]
  rfl

theorem tokens_of_more {s : Scanner} (more : s.scan.1.kind ≠ .endOfInput) :
    s.tokens = s.scan.1 :: s.scan.2.tokens := by
  rw [tokens, tokenize, tokenizeOnto_of_more _ more, toList_tokenizeOnto]
  rfl

theorem tokens_end_last (s : Scanner) :
    ∃ front last, s.tokens = front ++ [last] ∧ last.kind = .endOfInput ∧ ∀ t ∈ front, t.kind ≠ .endOfInput := by
  induction s using scanInduction with
  | ended s stop => exact ⟨[], s.scan.1, tokens_of_end stop, stop, by simp⟩
  | more s stop ih =>
    obtain ⟨front, last, split, isEnd, others⟩ := ih
    refine ⟨s.scan.1 :: front, last, by rw [tokens_of_more stop, split, List.cons_append], isEnd, ?_⟩
    intro t member
    rcases List.mem_cons.mp member with rfl | member
    · exact stop
    · exact others t member

theorem offset_readToken (s : Scanner) : s.readToken.1.location.offset = s.position.offset := by
  unfold readToken
  cases s.rest with
  | nil => rfl
  | cons c rest =>
    dsimp only
    split
    · rfl
    · split <;> rfl

theorem readToken_of_end {s : Scanner} (stop : s.readToken.1.kind = .endOfInput) :
    s.readToken.2 = { s with tokenStart := s.position.offset } := by
  rcases length_rest_readToken s with ended | read
  · unfold readToken
    rw [ended.2.2]
  · exact absurd stop read.1

theorem offset_lt_position_readToken {s : Scanner} (more : s.readToken.1.kind ≠ .endOfInput) :
    s.readToken.1.location.offset < s.readToken.2.position.offset := by
  rw [offset_readToken]
  revert more
  unfold readToken
  cases s.rest with
  | nil => exact fun more => absurd rfl more
  | cons c rest =>
    intro more
    dsimp only
    split
    · simp only [readWhile, Position.offset_after, Position.offset_step]
      omega
    · split <;> simp only [Position.offset_step] <;> omega

theorem position_le_offset_scan (s : Scanner) : (s.position.offset : Int) ≤ s.scan.1.location.offset := by
  rw [scan, offset_readToken]
  simp only [skipWhitespace, readWhile, Position.offset_after]
  omega

theorem position_le_offset_tokens (s : Scanner) :
    ∀ t ∈ s.tokens, (s.position.offset : Int) ≤ t.location.offset := by
  induction s using scanInduction with
  | ended s stop =>
    intro t member
    rw [tokens_of_end stop, List.mem_singleton] at member
    rw [member]
    exact position_le_offset_scan s
  | more s stop ih =>
    have here := position_le_offset_scan s
    have passed := offset_lt_position_readToken stop
    intro t member
    rw [tokens_of_more stop] at member
    rcases List.mem_cons.mp member with rfl | member
    · exact here
    · have later := ih t member
      change s.scan.1.location.offset < _ at passed
      change (s.scan.2.position.offset : Int) ≤ _ at later
      simp only [scan] at *
      omega

theorem tokens_pairwise_offset (s : Scanner) :
    s.tokens.Pairwise (fun a b => a.location.offset < b.location.offset) := by
  induction s using scanInduction with
  | ended s stop =>
    rw [tokens_of_end stop]
    exact List.pairwise_singleton _ _
  | more s stop ih =>
    rw [tokens_of_more stop, List.pairwise_cons]
    refine ⟨fun t member => ?_, ih⟩
    have passed := offset_lt_position_readToken stop
    exact Int.lt_of_lt_of_le passed (position_le_offset_tokens s.scan.2 t member)

def tokensFrom (token : Token) (s : Scanner) : List Token :=
  token :: if token.kind = .endOfInput then [] else s.tokens

theorem pullOnto_of_invalid (passed : Array Token) {s : Scanner} (invalid : s.scan.1.kind = .invalid) :
    s.pullOnto passed = s.scan.2.pullOnto (passed.push s.scan.1) := by
  rw [pullOnto]
  simp only [invalid, dite_true]

theorem pullOnto_of_valid (passed : Array Token) {s : Scanner} (valid : s.scan.1.kind ≠ .invalid) :
    s.pullOnto passed = ⟨passed, s.scan.1, s.scan.2⟩ := by
  rw [pullOnto]
  simp only [valid, dite_false]

theorem pullOnto_eq (passed : Array Token) (s : Scanner) :
    s.pullOnto passed = { s.pull with passed := passed ++ s.pull.passed } := by
  induction s using scanInduction generalizing passed with
  | ended s stop =>
    have valid : s.scan.1.kind ≠ .invalid := by rw [stop]; decide
    rw [pull, pullOnto_of_valid _ valid, pullOnto_of_valid _ valid]
    simp only [Array.append_empty]
  | more s stop ih =>
    by_cases invalid : s.scan.1.kind = .invalid
    · rw [pull, pullOnto_of_invalid _ invalid, pullOnto_of_invalid _ invalid, ih, ih]
      simp only [Array.push_eq_append, Array.append_assoc, Array.empty_append]
    · rw [pull, pullOnto_of_valid _ invalid, pullOnto_of_valid _ invalid]
      simp only [Array.append_empty]

theorem pull_of_valid {s : Scanner} (valid : s.scan.1.kind ≠ .invalid) :
    s.pull = ⟨#[], s.scan.1, s.scan.2⟩ := pullOnto_of_valid #[] valid

theorem pull_of_invalid {s : Scanner} (invalid : s.scan.1.kind = .invalid) :
    s.pull = { s.scan.2.pull with passed := #[s.scan.1] ++ s.scan.2.pull.passed } := by
  rw [pull, pullOnto_of_invalid _ invalid, pullOnto_eq]
  rfl

@[elab_as_elim]
theorem pullInduction {motive : Scanner → Prop}
    (valid : ∀ s, s.scan.1.kind ≠ .invalid → motive s)
    (invalid : ∀ s, s.scan.1.kind = .invalid → motive s.scan.2 → motive s) (s : Scanner) : motive s := by
  induction s using scanInduction with
  | ended s stop => exact valid s (by rw [stop]; decide)
  | more s _ ih =>
    by_cases bad : s.scan.1.kind = .invalid
    · exact invalid s bad ih
    · exact valid s bad

theorem kind_pull_ne_invalid (s : Scanner) : s.pull.token.kind ≠ .invalid := by
  induction s using pullInduction with
  | valid s valid => rwa [pull_of_valid valid]
  | invalid s invalid ih => rwa [pull_of_invalid invalid]

theorem kind_passed_pull (s : Scanner) : ∀ t ∈ s.pull.passed.toList, t.kind = .invalid := by
  induction s using pullInduction with
  | valid s valid => simp [pull_of_valid valid]
  | invalid s invalid ih =>
    intro t member
    simp only [pull_of_invalid invalid, Array.toList_append, List.cons_append, List.nil_append,
      List.mem_cons] at member
    rcases member with rfl | member
    · exact invalid
    · exact ih t member

theorem tokens_eq_pull (s : Scanner) :
    s.tokens = s.pull.passed.toList ++ s.pull.scanner.tokensFrom s.pull.token := by
  induction s using pullInduction with
  | valid s valid =>
    rw [pull_of_valid valid, tokensFrom]
    by_cases stop : s.scan.1.kind = .endOfInput
    · simp only [tokens_of_end stop, stop, ite_true, List.nil_append]
    · simp only [tokens_of_more stop, stop, ite_false, List.nil_append]
  | invalid s invalid ih =>
    have more : s.scan.1.kind ≠ .endOfInput := by rw [invalid]; decide
    rw [tokens_of_more more, ih, pull_of_invalid invalid]
    simp only [Array.toList_append, List.cons_append, List.nil_append]

theorem scan_of_end {s : Scanner} (stop : s.scan.1.kind = .endOfInput) : s.scan.2.scan = s.scan := by
  have final := readToken_of_end stop
  rcases length_rest_readToken s.skipWhitespace with ended | read
  · have empty := ended.2.2
    simp only [scan]
    rw [final]
    simp only [skipWhitespace, readWhile] at empty ⊢
    simp only [empty, List.dropWhile_nil, List.takeWhile_nil, Position.after_nil]
    rfl
  · exact absurd stop read.1

theorem pull_of_pulled_end {s : Scanner} (stop : s.pull.token.kind = .endOfInput) :
    s.pull.scanner.pull = ⟨#[], s.pull.token, s.pull.scanner⟩ := by
  induction s using pullInduction with
  | valid s valid =>
    rw [pull_of_valid valid] at stop ⊢
    have again := scan_of_end stop
    rw [pull_of_valid (by rwa [again]), again]
  | invalid s invalid ih =>
    rw [pull_of_invalid invalid] at stop ⊢
    exact ih stop

theorem length_rest_scan_le (s : Scanner) : s.scan.2.rest.length ≤ s.rest.length := by
  have skipped := length_dropWhile_le isWhitespace s.rest
  rcases length_rest_readToken s.skipWhitespace with ended | read
  · simp only [scan, ended.2.1]
    exact skipped
  · exact Nat.le_of_lt (length_rest_scan read.1)

theorem length_rest_pull_le (s : Scanner) : s.pull.scanner.rest.length ≤ s.rest.length := by
  induction s using pullInduction with
  | valid s valid =>
    rw [pull_of_valid valid]
    exact length_rest_scan_le s
  | invalid s invalid ih =>
    rw [pull_of_invalid invalid]
    exact Nat.le_trans ih (length_rest_scan_le s)

theorem length_rest_pull {s : Scanner} (more : s.pull.token.kind ≠ .endOfInput) :
    s.pull.scanner.rest.length < s.rest.length := by
  induction s using pullInduction with
  | valid s valid =>
    rw [pull_of_valid valid] at more ⊢
    exact length_rest_scan more
  | invalid s invalid ih =>
    rw [pull_of_invalid invalid] at more ⊢
    exact Nat.lt_of_lt_of_le (ih more) (length_rest_scan_le s)

end Arith.Scanner
