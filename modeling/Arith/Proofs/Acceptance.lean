import Arith.Proofs.PhraseReading
import Arith.Proofs.WholeText
import Arith.Tree.Printer

namespace Arith

namespace Parsing

theorem Recorded.quiet_iff {p : Parsing} (recorded : p.Recorded) : p.hadError = false ↔ p.reported = [] := by
  rw [recorded.hadError, ← List.head?_eq_none_iff, ← recorded.first, Array.getElem?_eq_none_iff]
  constructor
  · intro none
    rw [none]
    exact Nat.le_refl 0
  · exact fun size => Array.eq_empty_of_size_eq_zero (Nat.le_zero.mp size)

theorem tokens_eq_spelling (source filename : String) :
    ∃ stop, (Scanner.ofSource source filename).tokens = spelling source filename ++ [stop] ∧
      stop.kind = .endOfInput := by
  obtain ⟨front, last, split, isEnd, _⟩ := (Scanner.ofSource source filename).tokens_end_last
  refine ⟨last, ?_, isEnd⟩
  have same : spelling source filename = front := by
    change (Scanner.ofSource source filename).tokens.dropLast = front
    rw [split, List.dropLast_concat]
  rw [same, split]

theorem ahead_start {s : Scanner} {first : Token} {behind : List Token} (tokens : s.tokens = first :: behind)
    (valid : first.kind ≠ .invalid) : (start s).ahead = first :: behind ∧ (start s).reported = [] := by
  have split := tokens_eq_start s
  have reports := reported_start s
  cases passed : s.pull.passed.toList with
  | nil =>
    rw [passed] at split reports
    exact ⟨split.symm.trans tokens, reports⟩
  | cons t more =>
    rw [passed, tokens, List.cons_append] at split
    have invalid := Scanner.kind_passed_pull s t (by rw [passed]; exact List.mem_cons_self)
    rw [(List.cons.inj split).1] at valid
    exact absurd invalid valid

theorem start_of_phrase {s : Scanner} {word : List Token} {stop : Token} {tree : Tree}
    (tokens : s.tokens = word ++ [stop]) (phrase : Phrase .conditional word tree) :
    (start s).ahead = word ++ [stop] ∧ (start s).reported = [] := by
  obtain ⟨first, behind, split, _⟩ := phrase.begins
  have valid := phrase.valid first (by rw [split]; exact List.mem_cons_self)
  have whole : s.tokens = first :: (behind ++ [stop]) := by rw [tokens, split, List.cons_append]
  have starts := ahead_start whole valid
  rwa [← List.cons_append, ← split] at starts

theorem phrase_unique {s : Scanner} {word : List Token} {stop : Token} {first second : Tree}
    (tokens : s.tokens = word ++ [stop]) (isEnd : stop.kind = .endOfInput) (fits : Fits word)
    (one : Phrase .conditional word first) (other : Phrase .conditional word second) : first = second := by
  have valid : stop.kind ≠ .invalid := by rw [isEnd]; decide
  have closed : ¬ stop.kind.Continues .conditional := by rw [isEnd]; decide
  exact tree_unique (nestingExceeded_start s) (start_of_phrase tokens one).1 fits valid closed one other

theorem accepts_of_phrase {s : Scanner} {word : List Token} {stop : Token} {tree : Tree}
    (tokens : s.tokens = word ++ [stop]) (isEnd : stop.kind = .endOfInput)
    (phrase : Phrase .conditional word tree) (fits : Fits word) (height : tree.height ≤ maxNesting) :
    (start s).expression.1 = tree ∧ (start s).expression.2.reported = [] := by
  have stopValid : stop.kind ≠ .invalid := by rw [isEnd]; decide
  have closed : ¬ stop.kind.Continues .conditional := by rw [isEnd]; decide
  obtain ⟨ahead, quiet⟩ := start_of_phrase tokens phrase
  obtain ⟨q, passes, same⟩ :=
    parseWithin_of_phrase phrase (nestingExceeded_start s) ahead fits stopValid height closed
  have parsed : (start s).parse .conditional = (tree, q) := by rw [parse_of_outermost (depth_start s), same]
  have settled := (moves_parseWithin maxNesting .conditional (start s)).settled (.start s)
  rw [same] at settled
  have here : q.current.kind = .endOfInput := by rw [current_of_ahead (passes.ahead_eq ahead), isEnd]
  rw [expression_eq, parsed]
  refine ⟨rfl, ?_⟩
  have still := advance_of_end (p := { q with panicking := false }) ⟨settled.valid, settled.still⟩ here
  rw [consume_of_found passes.running here]
  exact (still.1.trans passes.reported).trans quiet

theorem phrase_of_quiet {s : Scanner} {word : List Token} {stop : Token} (tokens : s.tokens = word ++ [stop])
    (quiet : (start s).expression.2.reported = []) :
    Phrase .conditional word (start s).expression.1 ∧ Fits word ∧ (start s).expression.1.height ≤ maxNesting := by
  rcases expression_start s with ⟨front, last, split, phrase, fits, height, _⟩ | ⟨error, _, _, found, _⟩
  · have same : word = front := (List.append_inj' (tokens.symm.trans split) rfl).1
    rw [same]
    exact ⟨phrase, fits, height⟩
  · rw [quiet] at found
    cases found

end Parsing

/-- A text is read without an error exactly when its tokens are a phrase that can be built. The tree that is
answered is then the only one that they derive. -/
theorem expression_accepts_iff_phrase (source filename : String) :
    ((Parsing.ofSource source filename).expression.2.hadError = false ↔
        (∀ t ∈ spelling source filename, t.kind ≠ .invalid) ∧
        (∀ t ∈ spelling source filename, t.kind = .number → t.lexeme.length ≤ 4300) ∧
        ∃ tree, Phrase .conditional (spelling source filename) tree ∧ tree.height ≤ 100) ∧
      ((Parsing.ofSource source filename).expression.2.hadError = false →
        (Parsing.ofSource source filename).expression.2.errors = #[] ∧
        ∀ tree, Phrase .conditional (spelling source filename) tree ↔
          tree = (Parsing.ofSource source filename).expression.1) := by
  obtain ⟨stop, tokens, isEnd⟩ := Parsing.tokens_eq_spelling source filename
  have recorded : (Parsing.ofSource source filename).expression.2.Recorded := Parsing.recorded_expression _
  constructor
  · rw [recorded.quiet_iff]
    constructor
    · intro quiet
      obtain ⟨phrase, fits, height⟩ := Parsing.phrase_of_quiet tokens quiet
      exact ⟨phrase.valid, fits, _, phrase, height⟩
    · rintro ⟨_, fits, tree, phrase, height⟩
      exact (Parsing.accepts_of_phrase tokens isEnd phrase fits height).2
  · intro accepted
    obtain ⟨phrase, fits, _⟩ := Parsing.phrase_of_quiet tokens (recorded.quiet_iff.mp accepted)
    refine ⟨recorded.hadError.mp accepted, fun tree => ⟨fun other => ?_, ?_⟩⟩
    · exact Parsing.phrase_unique tokens isEnd fits other phrase
    · rintro rfl
      exact phrase

/-- The first two numbers are grouped first, the last condition is part of the branch it stands in, and a sign takes
only the number behind it. -/
theorem expression_accepts_iff_phrase_nested :
    ∃ tree,
      (∀ other, Phrase .conditional (spelling "12 - 3 - -4 * 50 ? 007 : !0 ? 6 : 81 / 9" "") other ↔ other = tree) ∧
        tree.height ≤ 100 ∧ tree.print = "(?: (- (- 12 3) (* (- 4) 50)) 7 (?: (! 0) 6 (/ 81 9)))" ∧
        (Parsing.ofSource "12 - 3 - -4 * 50 ? 007 : !0 ? 6 : 81 / 9" "").expression.1 = tree := by
  have accepted : (Parsing.ofSource "12 - 3 - -4 * 50 ? 007 : !0 ? 6 : 81 / 9" "").expression.2.hadError = false := by
    decide +kernel
  have derived := (expression_accepts_iff_phrase "12 - 3 - -4 * 50 ? 007 : !0 ? 6 : 81 / 9" "").2 accepted
  exact ⟨_, derived.2, by decide +kernel, by decide +kernel, rfl⟩

end Arith
