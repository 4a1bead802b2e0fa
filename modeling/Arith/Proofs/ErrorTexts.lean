import Arith.Proofs.ParserInvariants
import Arith.Proofs.ScannerCursor
import Arith.Proofs.WholeText

namespace Arith

namespace SyntaxError

/-- The errors that reading an expression can find. A client may wait for other tokens, with messages of its own. -/
inductive Ordinary : SyntaxError → Prop where
  | lexical {token : Token} (message : token.lexeme = unexpectedCharacter) : Ordinary ⟨.lexical, token⟩
  | refused {token : Token} {cause : Cause} (refused : Parsing.Refused token cause) : Ordinary ⟨cause, token⟩
  | undivided (token : Token) : Ordinary ⟨.missing .colon Parsing.dividerMessage, token⟩
  | tooDeep (token : Token) : Ordinary ⟨.nestedTooDeeply maxNesting, token⟩
  | trailing (token : Token) : Ordinary ⟨.missing .endOfInput Parsing.trailingMessage, token⟩

def ordinaryMessages : List String :=
  [unexpectedCharacter, Parsing.dividerMessage, "Expect an expression", ErrorCode.numberTooLarge.description,
    ErrorCode.nestedTooDeeply.description, Parsing.trailingMessage]

theorem Ordinary.message_mem {e : SyntaxError} (ordinary : e.Ordinary) : e.message ∈ ordinaryMessages := by
  cases ordinary with
  | lexical message => simp [SyntaxError.message, message, ordinaryMessages]
  | refused refused => cases refused <;> simp [SyntaxError.message, ordinaryMessages]
  | undivided | tooDeep | trailing => simp [SyntaxError.message, ordinaryMessages]

theorem Ordinary.message_on_line {e : SyntaxError} (ordinary : e.Ordinary) : '\n' ∉ e.message.toList := by
  have all : ∀ message ∈ ordinaryMessages, '\n' ∉ message.toList := by decide
  exact all _ ordinary.message_mem

end SyntaxError

theorem Token.place_on_line {t : Token} (whole : '\n' ∉ t.lexeme.toList) : '\n' ∉ t.place.toList := by
  unfold place
  split
  · decide
  · decide
  · simpa using whole

theorem SyntaxError.Ordinary.brief_on_line {e : SyntaxError} (ordinary : e.Ordinary)
    (whole : '\n' ∉ e.token.lexeme.toList) : '\n' ∉ e.brief.toList := by
  have message := ordinary.message_on_line
  have place := Token.place_on_line whole
  show '\n' ∉ ("Error" ++ e.token.place ++ ": " ++ e.message).toList
  simpa using ⟨place, message⟩

namespace Scanner

def lexemeChars : List Char := digits ++ Token.operators.map (·.1) ++ unexpectedCharacter.toList

theorem lexeme_chars_scan (s : Scanner) : s.scan.1.lexeme.toList ⊆ lexemeChars := by
  obtain ⟨gap, taken, reading⟩ := s.reading_scan
  have message := reading.message
  have munch := reading.munch
  generalize s.scan.1.kind = kind, s.scan.1.lexeme = lexeme, s.scan.2.rest = behind at munch message
  intro c member
  cases munch with
  | endOfInput => cases member
  | number _ digits =>
    have digit := digits c (by simpa using member)
    exact List.mem_append_left _ (List.mem_append_left _ (List.contains_iff_mem.mp digit))
  | @operator d _ _ found =>
    have same : c = d := by simpa using member
    rw [same]
    exact List.mem_append_left _ (List.mem_append_right _ (List.mem_map_of_mem (Token.Kind.mem_operators found)))
  | invalid =>
    rw [message rfl] at member
    exact List.mem_append_right _ member

theorem tokens_scan_subset (s : Scanner) : s.scan.2.tokens ⊆ s.tokens := by
  by_cases stop : s.scan.1.kind = .endOfInput
  · have again := scan_of_end stop
    rw [tokens_of_end stop, tokens_of_end (by rwa [again]), again]
    exact List.Subset.refl _
  · rw [tokens_of_more stop]
    exact List.subset_cons_self _ _

theorem tokens_pull_subset (s : Scanner) :
    s.pull.passed.toList ⊆ s.tokens ∧ s.pull.token ∈ s.tokens ∧ s.pull.scanner.tokens ⊆ s.tokens := by
  induction s using pullInduction with
  | valid s valid =>
    rw [pull_of_valid valid]
    exact ⟨List.nil_subset _, scan_mem_tokens s, tokens_scan_subset s⟩
  | invalid s invalid ih =>
    obtain ⟨passed, token, behind⟩ := ih
    have inside := tokens_scan_subset s
    rw [pull_of_invalid invalid]
    refine ⟨?_, inside token, List.Subset.trans behind inside⟩
    rw [Array.toList_append]
    exact List.cons_subset.mpr ⟨scan_mem_tokens s, List.Subset.trans passed inside⟩

theorem lexeme_chars (s : Scanner) : ∀ t ∈ s.tokens, t.lexeme.toList ⊆ lexemeChars := by
  induction s using scanInduction with
  | ended s stop =>
    rw [tokens_of_end stop]
    exact List.forall_mem_singleton.mpr (lexeme_chars_scan s)
  | more s stop ih =>
    rw [tokens_of_more stop]
    exact List.forall_mem_cons.mpr ⟨lexeme_chars_scan s, ih⟩

theorem lexeme_on_line (s : Scanner) : ∀ t ∈ s.tokens, '\n' ∉ t.lexeme.toList := by
  have apart : '\n' ∉ lexemeChars := by decide
  exact fun t member feed => apart (s.lexeme_chars t member feed)

end Scanner

theorem lastLine_of_line {text : List Char} (whole : '\n' ∉ text) : lastLine text = text := by
  rw [lastLine, List.rtakeWhile_eq_self_iff]
  intro c member
  simpa using fun feed : c = '\n' => whole (feed ▸ member)

theorem Location.Counts.column_eq {text : List Char} {l : Location} (counts : l.Counts text) (whole : '\n' ∉ text) :
    l.column = l.offset + 1 := by
  have front : '\n' ∉ text.take l.offset.toNat := fun member => whole (List.mem_of_mem_take member)
  have inside := counts.offset_le
  have column := counts.column
  rw [lastLine_of_line front, List.length_take, Nat.min_eq_left (by omega)] at column
  have start := counts.nonneg
  omega

namespace Parsing

structure Draws (holds : Token → Prop) (p : Parsing) : Prop where
  current : holds p.current
  coming : ∀ t ∈ p.scanner.tokens, holds t
  errors : ∀ e ∈ p.errors, holds e.token ∧ e.Ordinary

namespace Draws

variable {holds : Token → Prop} {p : Parsing}

theorem report {error : SyntaxError} (draws : p.Draws holds) (token : holds error.token) (ordinary : error.Ordinary) :
    (p.report error).Draws holds := by
  refine ⟨by simpa using draws.current, by simpa using draws.coming, ?_⟩
  unfold Parsing.report
  split
  · exact draws.errors
  · intro e member
    rcases Array.mem_push.mp member with before | rfl
    · exact draws.errors e before
    · exact ⟨token, ordinary⟩

theorem reportPassed {passed : Array Token} (draws : p.Draws holds) (tokens : ∀ t ∈ passed.toList, holds t)
    (messages : ∀ t ∈ passed.toList, t.lexeme = unexpectedCharacter) : (reportPassed passed p).Draws holds :=
  reportPassed_induction (motive := Draws holds) passed draws fun _ t member draws =>
    draws.report (tokens t member) (.lexical (messages t member))

theorem start {s : Scanner} (tokens : ∀ t ∈ s.tokens, holds t) : (start s).Draws holds := by
  obtain ⟨passed, token, behind⟩ := s.tokens_pull_subset
  refine reportPassed ⟨?_, ?_, ?_⟩ (fun t member => tokens t (passed member)) s.message_passed_pull
  · exact tokens _ token
  · exact fun t member => tokens t (behind member)
  · simp

theorem advance (draws : p.Draws holds) : p.advance.Draws holds := by
  obtain ⟨passed, token, behind⟩ := p.scanner.tokens_pull_subset
  refine reportPassed ⟨?_, ?_, draws.errors⟩ (fun t member => draws.coming t (passed member))
    p.scanner.message_passed_pull
  · exact draws.coming _ token
  · exact fun t member => draws.coming t (behind member)

theorem consume {expected : Token.Kind} {message : String} (draws : p.Draws holds)
    (ordinary : SyntaxError.Ordinary ⟨.missing expected message, p.current⟩) :
    (p.consume expected message).2.Draws holds := by
  rcases consume_cases expected message p with ⟨_, same⟩ | ⟨_, _, same⟩ | ⟨_, _, same⟩ <;> rw [same]
  · exact draws
  · exact advance (p := { p with panicking := false }) ⟨draws.current, draws.coming, draws.errors⟩
  · exact draws.report draws.current ordinary

theorem exceed (draws : p.Draws holds) : p.exceedNesting.Draws holds := by
  unfold exceedNesting
  split
  · exact draws
  · exact report (p := { p with nestingExceeded := true }) ⟨draws.current, draws.coming, draws.errors⟩ draws.current
      (.tooDeep _)

theorem moves {q : Parsing} (moves : Moves p q) (draws : p.Draws holds) : q.Draws holds := by
  refine moves.preserve (motive := Draws holds) ?_ draws
  intro a b move draws
  cases move with
  | pass => exact draws.advance
  | refuse _ refused => exact draws.advance.report draws.current (.refused refused)
  | divide => exact draws.consume (.undivided _)
  | exceed => exact draws.exceed
  | descend | ascend => exact ⟨draws.current, draws.coming, draws.errors⟩

theorem expression (draws : p.Draws holds) : p.expression.2.Draws holds := by
  rw [expression_eq]
  exact (moves (moves_parse .conditional p) draws).consume (.trailing _)

end Draws

end Parsing

theorem errors_drawn {holds : Token → Prop} {source filename : String}
    (tokens : ∀ t ∈ tokenize source filename, holds t) :
    ∀ e ∈ (Parsing.ofSource source filename).expression.2.errors, holds e.token ∧ e.Ordinary :=
  (Parsing.Draws.start fun t member => tokens t (Array.mem_toList_iff.mp member)).expression.errors

theorem brief_on_line (source filename : String) :
    ∀ e ∈ (Parsing.ofSource source filename).expression.2.errors, '\n' ∉ e.brief.toList := by
  intro e member
  have lexemes : ∀ t ∈ tokenize source filename, '\n' ∉ t.lexeme.toList := fun t member =>
    (Scanner.ofSource source filename).lexeme_on_line t (Array.mem_toList_iff.mpr member)
  obtain ⟨whole, ordinary⟩ := errors_drawn lexemes e member
  exact ordinary.brief_on_line whole

theorem column_of_error {source : String} (filename : String) (whole : '\n' ∉ source.toList) :
    ∀ e ∈ (Parsing.ofSource source filename).expression.2.errors, e.location.column = e.location.offset + 1 := by
  intro e member
  have within := Scanner.within_ofSource source filename
  have places : ∀ t ∈ tokenize source filename, t.location.column = t.location.offset + 1 := fun t member =>
    (within.counts t (Array.mem_toList_iff.mpr member)).column_eq whole
  exact (errors_drawn places e member).1

end Arith
