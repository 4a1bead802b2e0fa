import Arith.Proofs.AlikeTexts
import Arith.Proofs.FrontEnds
import Arith.Proofs.StrayCharacters

namespace Arith

theorem Text.quotedChars_of_plain {text : List Char} (plain : ∀ c ∈ text, escape '\'' c = [c]) :
    quotedChars text = '\'' :: (text ++ ['\'']) := by
  have apart : '\'' ∉ text := by
    intro member
    have escaped := plain '\'' member
    revert escaped
    decide
  have quote : quoteFor text = '\'' := by simp [quoteFor, apart]
  simp only [quotedChars, quote, List.flatMap_congr plain, List.flatMap_singleton']

theorem Text.quotedChars_of_lexeme {lexeme : List Char} (chars : lexeme ⊆ Scanner.lexemeChars) :
    quotedChars lexeme = '\'' :: (lexeme ++ ['\'']) := by
  have plain : Scanner.lexemeChars.all (fun c => escape '\'' c = [c]) = true := by decide
  exact quotedChars_of_plain fun c member => by simpa using List.all_eq_true.mp plain c (chars member)

namespace Token.Kind

theorem ofLabel?_label (kind : Kind) : ofLabel? kind.label = some kind := by
  cases kind <;> decide

theorem label_injective {kind kind' : Kind} (same : kind.label.toList = kind'.label.toList) : kind = kind' := by
  apply Option.some.inj
  rw [← ofLabel?_label, ← ofLabel?_label, String.toList_inj.mp same]

theorem label_on_line (kind : Kind) : ∀ c ∈ kind.label.toList, c ≠ ' ' ∧ c ≠ '\n' := by
  have letters : kind.label.toList.all (fun c => c != ' ' && c != '\n') = true := by cases kind <;> decide
  simpa using letters

end Token.Kind

namespace Repl

def tokenLine (t : Token) : String :=
  Text.alignRight 4 (toString t.location.column) ++ "  " ++ Text.alignLeft 12 t.kind.label ++ " " ++
    Text.quoted t.lexeme

theorem dumpToken_eq (t : Token) : dumpToken t = tokenLine t ++ "\n" := rfl

def spaces (count : Nat) : List Char := List.replicate count ' '

theorem eq_of_mem_spaces {count : Nat} {c : Char} (member : c ∈ spaces count) : c = ' ' :=
  List.eq_of_mem_replicate member

theorem head_spaces {count : Nat} {behind : List Char} : ∀ c ∈ (spaces (count + 1) ++ behind).head?, c = ' ' := by
  simp [spaces, List.replicate_succ]

theorem behind_spaces {count count' : Nat} {behind behind' : List Char} (stops : ∀ c ∈ behind.head?, c ≠ ' ')
    (stops' : ∀ c ∈ behind'.head?, c ≠ ' ') (same : spaces count ++ behind = spaces count' ++ behind') :
    behind = behind' := by
  have blank (n : Nat) : ∀ c ∈ spaces n, (c == ' ') = true := fun c member => beq_iff_eq.mpr (eq_of_mem_spaces member)
  exact (front_unique (blank count) (blank count') (fun c first => beq_false_of_ne (stops c first))
    (fun c first => beq_false_of_ne (stops' c first)) same).2

theorem head_numeral (value : Int) (behind : List Char) :
    ∀ c ∈ ((toString value).toList ++ behind).head?, c ≠ ' ' := by
  rintro c first rfl
  have numeral := isNumeral_head value behind _ first
  revert numeral
  decide

theorem label_front {kind kind' : Token.Kind} {count count' : Nat} {behind behind' : List Char}
    (same : kind.label.toList ++ (spaces (count + 1) ++ behind) =
      kind'.label.toList ++ (spaces (count' + 1) ++ behind')) :
    kind = kind' ∧ spaces (count + 1) ++ behind = spaces (count' + 1) ++ behind' := by
  have letters (kind : Token.Kind) : ∀ c ∈ kind.label.toList, (c != ' ') = true :=
    fun c member => bne_iff_ne.mpr (kind.label_on_line c member).1
  obtain ⟨label, rest⟩ := front_unique (letters kind) (letters kind')
    (fun c first => by simpa using head_spaces c first) (fun c first => by simpa using head_spaces c first) same
  exact ⟨Token.Kind.label_injective label, rest⟩

theorem toList_tokenLine {t : Token} (chars : t.lexeme.toList ⊆ Scanner.lexemeChars) :
    ∃ before between, (tokenLine t).toList =
      spaces before ++ ((toString t.location.column).toList ++ (spaces 2 ++ (t.kind.label.toList ++
        (spaces (between + 1) ++ '\'' :: (t.lexeme.toList ++ ['\'']))))) := by
  refine ⟨4 - (toString t.location.column).length, 12 - t.kind.label.length, ?_⟩
  simp [tokenLine, Text.alignRight, Text.alignLeft, Text.quoted, Text.quotedChars_of_lexeme chars, spaces,
    List.replicate_succ']

theorem tokenLine_on_line {t : Token} (chars : t.lexeme.toList ⊆ Scanner.lexemeChars) :
    '\n' ∉ (tokenLine t).toList := by
  obtain ⟨before, between, text⟩ := toList_tokenLine chars
  have blank (n : Nat) : '\n' ∉ spaces n := fun feed => absurd (eq_of_mem_spaces feed) (by decide)
  have column := toString_on_line t.location.column
  have label : '\n' ∉ t.kind.label.toList := fun feed => (t.kind.label_on_line _ feed).2 rfl
  have lexeme : '\n' ∉ t.lexeme.toList := fun feed => absurd (chars feed) (by decide)
  have quote : '\n' ≠ '\'' := by decide
  rw [text]
  simp only [List.mem_append, List.mem_cons, List.not_mem_nil, blank, column, label, lexeme, quote, or_self,
    not_false_eq_true]

/-- A row shows column, kind and lexeme, whatever their widths are. -/
theorem tokenLine_injective {t u : Token} (chars : t.lexeme.toList ⊆ Scanner.lexemeChars)
    (chars' : u.lexeme.toList ⊆ Scanner.lexemeChars) (same : tokenLine t = tokenLine u) :
    t.location.column = u.location.column ∧ t.face = u.face := by
  obtain ⟨_, _, text⟩ := toList_tokenLine chars
  obtain ⟨_, _, text'⟩ := toList_tokenLine chars'
  rw [← String.toList_inj, text, text'] at same
  have columns := behind_spaces (head_numeral _ _) (head_numeral _ _) same
  obtain ⟨column, labels⟩ := numeral_front (fun c first => head_spaces c first ▸ rfl)
    (fun c first => head_spaces c first ▸ rfl) columns
  obtain ⟨kind, lexemes⟩ := label_front (List.append_cancel_left labels)
  have quoted := behind_spaces (by simp) (by simp) lexemes
  have lexeme := List.append_cancel_right (List.cons.inj quoted).2
  exact ⟨column, Prod.ext kind (String.toList_inj.mp lexeme)⟩

structure Dumpable (t : Token) : Prop where
  column : t.location.column = t.location.offset + 1
  chars : t.lexeme.toList ⊆ Scanner.lexemeChars
  message : t.kind = .invalid → t.lexeme = unexpectedCharacter

theorem tokenLine_eq_iff {t u : Token} (dumpable : Dumpable t) (dumpable' : Dumpable u) :
    tokenLine t = tokenLine u ↔ t.sketch = u.sketch := by
  have column := dumpable.column
  have column' := dumpable'.column
  rw [Token.sketch_eq_iff]
  constructor
  · intro same
    obtain ⟨place, face⟩ := tokenLine_injective dumpable.chars dumpable'.chars same
    exact ⟨congrArg Prod.fst face, by omega, fun _ => congrArg Prod.snd face⟩
  · rintro ⟨kind, offset, lexeme⟩
    have shown : t.lexeme = u.lexeme := by
      by_cases invalid : t.kind = .invalid
      · rw [dumpable.message invalid, dumpable'.message (kind ▸ invalid)]
      · exact lexeme invalid
    have place : t.location.column = u.location.column := by omega
    rw [tokenLine, tokenLine, kind, shown, place]

theorem rows_eq_iff {tokens tokens' : List Token} (dumpable : ∀ t ∈ tokens, Dumpable t)
    (dumpable' : ∀ t ∈ tokens', Dumpable t) :
    tokens.map tokenLine = tokens'.map tokenLine ↔ tokens.map Token.sketch = tokens'.map Token.sketch := by
  induction tokens generalizing tokens' with
  | nil => cases tokens' <;> simp
  | cons t tokens ih =>
    cases tokens' with
    | nil => simp
    | cons u tokens' =>
      obtain ⟨first, others⟩ := List.forall_mem_cons.mp dumpable
      obtain ⟨first', others'⟩ := List.forall_mem_cons.mp dumpable'
      rw [List.map_cons, List.map_cons, List.map_cons, List.map_cons, List.cons.injEq, List.cons.injEq,
        tokenLine_eq_iff first first', ih others others']

section Dump

variable (line filename : String)

theorem chars_tokenize : ∀ t ∈ (tokenize line filename).toList, t.lexeme.toList ⊆ Scanner.lexemeChars :=
  (Scanner.ofSource line filename).lexeme_chars

theorem dumpable_tokenize {line : String} (whole : '\n' ∉ line.toList) :
    ∀ t ∈ (tokenize line filename).toList, Dumpable t := by
  have within := Scanner.within_ofSource line filename
  intro t member
  exact ⟨(within.counts t member).column_eq whole, chars_tokenize line filename t member,
    (Scanner.genuine_tokens within t member).message⟩

theorem outText_dumpLine : outText (dumpLine line filename).events =
    String.join (((tokenize line filename).toList.map tokenLine).map (· ++ "\n")) := by
  rw [outText_eq_join, dumpLine, Array.toList_map, List.map_map, List.map_map]
  exact congrArg String.join (List.map_congr_left fun t _ => dumpToken_eq t)

theorem linesOf_dumpLine :
    linesOf (outText (dumpLine line filename).events) = (tokenize line filename).toList.map tokenLine := by
  rw [outText_dumpLine]
  exact linesOf_join (List.forall_mem_map.mpr fun t member => tokenLine_on_line (chars_tokenize line filename t member))

theorem errText_dumpLine : errText (dumpLine line filename).events = "" := by
  rw [errText_eq_join]
  apply join_eq_empty
  simp [dumpLine, Event.errText]

theorem logLines_dumpLine : logLines (dumpLine line filename).events = #[] := by
  rw [logLines, Array.filterMap_eq_empty_iff]
  simp [dumpLine, Event.logLine?]

theorem ok_dumpLine_iff : (dumpLine line filename).ok = true ↔ ∀ c ∈ line.toList, isStray c = false := by
  have tiles := Scanner.tiles_tokenize line filename
  rw [ok_dumpLine]
  constructor
  · intro valid c member
    obtain ⟨k, found⟩ := List.mem_iff_getElem?.mp member
    by_contra stray
    obtain ⟨t, token, invalid, _⟩ := (tiles.invalid_iff_stray found).mpr (by simpa using stray)
    exact valid t (Array.mem_toList_iff.mp token) invalid
  · intro clean t member invalid
    obtain ⟨_, front, taken, behind, split, _, munch⟩ := tiles.stands t (Array.mem_toList_iff.mpr member)
    obtain ⟨c, rfl, stray⟩ := munch.of_invalid invalid
    have inside : c ∈ line.toList := by simp [split]
    rw [clean c inside] at stray
    cases stray

end Dump

theorem outText_dumpLine_eq_iff {line line' : String} (filename filename' : String) (whole : '\n' ∉ line.toList)
    (whole' : '\n' ∉ line'.toList) :
    outText (dumpLine line filename).events = outText (dumpLine line' filename').events ↔
      AlikeTexts line.toList line'.toList := by
  rw [alikeTexts_iff_sketches line line' filename filename',
    ← rows_eq_iff (dumpable_tokenize filename whole) (dumpable_tokenize filename' whole')]
  constructor
  · intro same
    rw [← linesOf_dumpLine, ← linesOf_dumpLine, same]
  · intro rows
    rw [outText_dumpLine, outText_dumpLine, rows]

theorem not_stray_iff {c : Char} : isStray c = false ↔
    isDigit c = true ∨ (Token.Kind.ofOperator? c).isSome = true ∨ isWhitespace c = true := by
  rw [← Bool.not_eq_true, isStray_iff]
  cases isDigit c <;> cases isWhitespace c <;> cases Token.Kind.ofOperator? c <;> simp

/-- What is written of a line when its tokens are asked for: a row for each of them, and nothing else. -/
structure DumpedAs (line filename : String) (response : Response) : Prop where
  rows : outText response.events = String.join (((tokenize line filename).toList.map tokenLine).map (· ++ "\n"))
  lines : linesOf (outText response.events) = (tokenize line filename).toList.map tokenLine
  silent : errText response.events = "" ∧ logLines response.events = #[]
  ok : response.ok = true ↔ ∀ c ∈ line.toList,
    isDigit c = true ∨ (Token.Kind.ofOperator? c).isSome = true ∨ isWhitespace c = true

theorem dumpedAs_answerLine (line filename : String) : DumpedAs line filename (answerLine true line filename) where
  rows := outText_dumpLine line filename
  lines := linesOf_dumpLine line filename
  silent := ⟨errText_dumpLine line filename, logLines_dumpLine line filename⟩
  ok := by
    simp only [← not_stray_iff]
    exact ok_dumpLine_iff line filename

/-- The dump of a line shows all of the line but which whitespace and which stray characters it holds. -/
theorem dump_determines_line (line filename : String) :
    DumpedAs line filename (answerLine true line filename) ∧
      ('\n' ∉ line.toList → ∀ line' filename', '\n' ∉ line'.toList →
        (outText (answerLine true line filename).events = outText (answerLine true line' filename').events ↔
          AlikeTexts line.toList line'.toList)) :=
  ⟨dumpedAs_answerLine line filename, fun whole _ filename' whole' =>
    outText_dumpLine_eq_iff filename filename' whole whole'⟩

theorem dump_determines_line_strays :
    outText (answerLine true "12 $+" "").events = outText (answerLine true "12\té+" filename).events ∧
      AlikeTexts "12 $+".toList "12\té+".toList := by
  have both := (dump_determines_line "12 $+" "").2 (by decide) "12\té+" filename (by decide)
  have same : outText (answerLine true "12 $+" "").events = outText (answerLine true "12\té+" filename).events := by
    decide +kernel
  exact ⟨same, both.mp same⟩

end Repl

end Arith
