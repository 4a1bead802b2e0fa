import Arith.Scanner.Command
import Arith.Proofs.TokenStream
import Mathlib.Data.List.TakeWhile

namespace Arith

/-- The characters that neither stand between tokens nor begin one. -/
def isStray (c : Char) : Bool := !isDigit c && !isWhitespace c && (Token.Kind.ofOperator? c).isNone

theorem isStray_iff {c : Char} :
    isStray c = true ↔ isDigit c = false ∧ isWhitespace c = false ∧ Token.Kind.ofOperator? c = none := by
  simp [isStray, and_assoc]

theorem not_whitespace_of_digit {c : Char} (digit : isDigit c = true) : isWhitespace c = false := by
  have apart : digits.all (!isWhitespace ·) = true := by decide
  simpa using List.all_eq_true.mp apart c (List.contains_iff_mem.mp digit)

theorem class_of_operator {c : Char} {kind : Token.Kind} (found : Token.Kind.ofOperator? c = some kind) :
    isWhitespace c = false ∧ isDigit c = false := by
  have apart : ∀ entry ∈ Token.operators, isWhitespace entry.1 = false ∧ isDigit entry.1 = false := by decide
  exact apart _ (Token.Kind.mem_operators found)

theorem class_of_whitespace {c : Char} (white : isWhitespace c = true) :
    isDigit c = false ∧ Token.Kind.ofOperator? c = none := by
  have apart : whitespace.all (fun c => !isDigit c && (Token.Kind.ofOperator? c).isNone) = true := by decide
  simpa using List.all_eq_true.mp apart c (List.contains_iff_mem.mp white)

theorem takeWhile_front {α : Type} {p : α → Bool} {inside behind : List α} (holds : ∀ c ∈ inside, p c = true)
    (stops : ∀ c ∈ behind.head?, p c = false) : (inside ++ behind).takeWhile p = inside := by
  rw [List.takeWhile_append_of_pos holds]
  cases behind with
  | nil => simp
  | cons c rest => simp [stops c rfl]

theorem front_unique {α : Type} {p : α → Bool} {front front' behind behind' : List α} (holds : ∀ c ∈ front, p c = true)
    (holds' : ∀ c ∈ front', p c = true) (stops : ∀ c ∈ behind.head?, p c = false)
    (stops' : ∀ c ∈ behind'.head?, p c = false) (same : front ++ behind = front' ++ behind') :
    front = front' ∧ behind = behind' := by
  have equal : front = front' := by rw [← takeWhile_front holds stops, same, takeWhile_front holds' stops']
  subst equal
  exact ⟨rfl, List.append_cancel_left same⟩

/-- How a text `taken ++ behind` begins with a token, which stands for `taken`. -/
inductive Munch : (taken behind : List Char) → Token.Kind → (lexeme : String) → Prop where
  | endOfInput : Munch [] [] .endOfInput ""
  | number {taken behind : List Char} (some : taken ≠ []) (digits : ∀ c ∈ taken, isDigit c = true)
      (longest : ∀ c ∈ behind.head?, isDigit c = false) : Munch taken behind .number (String.ofList taken)
  | operator {c : Char} {behind : List Char} {kind : Token.Kind} (found : Token.Kind.ofOperator? c = some kind) :
      Munch [c] behind kind (String.ofList [c])
  | invalid {c : Char} {behind : List Char} (message : String) (stray : isStray c = true) :
      Munch [c] behind .invalid message

namespace Munch

variable {taken behind : List Char} {kind : Token.Kind} {lexeme : String}

theorem head_not_whitespace (munch : Munch taken behind kind lexeme) :
    ∀ c ∈ (taken ++ behind).head?, isWhitespace c = false := by
  intro c first
  cases munch with
  | endOfInput => cases first
  | number some digits longest =>
    obtain ⟨d, more, rfl⟩ := List.exists_cons_of_ne_nil some
    cases first
    exact not_whitespace_of_digit (digits _ List.mem_cons_self)
  | operator found =>
    cases first
    exact (class_of_operator found).1
  | invalid message stray =>
    cases first
    exact (isStray_iff.mp stray).2.1

def front : List Char → List Char × Token.Kind
  | [] => ([], .endOfInput)
  | c :: rest =>
    if isDigit c then ((c :: rest).takeWhile isDigit, .number)
    else ([c], (Token.Kind.ofOperator? c).getD .invalid)

theorem front_eq (munch : Munch taken behind kind lexeme) :
    front (taken ++ behind) = (taken, kind) ∧ (kind ≠ .invalid → lexeme = String.ofList taken) := by
  cases munch with
  | endOfInput => exact ⟨rfl, fun _ => rfl⟩
  | number some digits longest =>
    obtain ⟨d, more, rfl⟩ := List.exists_cons_of_ne_nil some
    have run := takeWhile_front digits longest
    rw [List.cons_append] at run ⊢
    rw [front, if_pos (digits d List.mem_cons_self), run]
    exact ⟨rfl, fun _ => rfl⟩
  | operator found => simp [front, (class_of_operator found).2, found]
  | invalid message stray =>
    obtain ⟨digit, _, operator⟩ := isStray_iff.mp stray
    simp [front, digit, operator]

theorem unique {taken' behind' : List Char} {kind' : Token.Kind} {lexeme' : String}
    (first : Munch taken behind kind lexeme) (second : Munch taken' behind' kind' lexeme')
    (same : taken ++ behind = taken' ++ behind') :
    taken = taken' ∧ kind = kind' ∧ (kind ≠ .invalid → lexeme = lexeme') := by
  obtain ⟨here, text⟩ := first.front_eq
  obtain ⟨there, text'⟩ := second.front_eq
  rw [same, there, Prod.mk.injEq] at here
  obtain ⟨rfl, rfl⟩ := here
  exact ⟨rfl, rfl, fun other => (text other).trans (text' other).symm⟩

theorem exchange (munch : Munch taken behind kind lexeme) (more : kind ≠ .endOfInput) {other : List Char}
    (apart : kind = .number → ∀ c ∈ other.head?, isDigit c = false) : Munch taken other kind lexeme := by
  cases munch with
  | endOfInput => exact absurd rfl more
  | number some digits _ => exact .number some digits (apart rfl)
  | operator found => exact .operator found
  | invalid _ stray => exact .invalid _ stray

theorem taken_ne_nil (munch : Munch taken behind kind lexeme) (more : kind ≠ .endOfInput) : taken ≠ [] := by
  cases munch with
  | endOfInput => exact absurd rfl more
  | number some => exact some
  | operator | invalid => exact List.cons_ne_nil _ _

theorem of_end (munch : Munch taken behind kind lexeme) (stop : kind = .endOfInput) : taken = [] ∧ behind = [] := by
  cases munch with
  | endOfInput => exact ⟨rfl, rfl⟩
  | number | invalid => cases stop
  | operator found => exact absurd stop (Token.Kind.ne_special found).1

theorem of_number (munch : Munch taken behind kind lexeme) (number : kind = .number) :
    taken ≠ [] ∧ (∀ c ∈ taken, isDigit c = true) ∧ ∀ c ∈ behind.head?, isDigit c = false := by
  cases munch with
  | endOfInput | invalid => cases number
  | number some digits longest => exact ⟨some, digits, longest⟩
  | operator found => exact absurd number (Token.Kind.ne_special found).2.2

theorem of_invalid (munch : Munch taken behind kind lexeme) (invalid : kind = .invalid) :
    ∃ c, taken = [c] ∧ isStray c = true := by
  cases munch with
  | endOfInput | number => cases invalid
  | operator found => exact absurd invalid (Token.Kind.ne_special found).2.1
  | @invalid c _ _ stray => exact ⟨c, rfl, stray⟩

end Munch

def Token.face (t : Token) : Token.Kind × String := (t.kind, t.lexeme)

namespace Scanner

/-- What reading a token from `s` does: it skips `gap`, takes `taken`, and is left with `next`. -/
structure Reading (s : Scanner) (gap taken : List Char) (token : Token) (next : Scanner) : Prop where
  blank : ∀ c ∈ gap, isWhitespace c = true
  split : s.rest = gap ++ (taken ++ next.rest)
  munch : Munch taken next.rest token.kind token.lexeme
  message : token.kind = .invalid → token.lexeme = unexpectedCharacter
  location : token.location = (s.position.after gap).inText s.filename
  filename : next.filename = s.filename
  position : next.position = (s.position.after gap).after taken
  tokenStart : next.tokenStart = (s.position.after gap).offset

theorem Reading.alike {s t next next' : Scanner} {gap taken gap' taken' : List Char} {token token' : Token}
    (first : Reading s gap taken token next) (second : Reading t gap' taken' token' next') (same : s.rest = t.rest) :
    gap = gap' ∧ taken = taken' ∧ token.face = token'.face ∧ next.rest = next'.rest := by
  have same : gap ++ (taken ++ next.rest) = gap' ++ (taken' ++ next'.rest) := by rw [← first.split, same, second.split]
  obtain ⟨rfl, texts⟩ := front_unique first.blank second.blank first.munch.head_not_whitespace
    second.munch.head_not_whitespace same
  obtain ⟨rfl, kind, lexeme⟩ := first.munch.unique second.munch texts
  refine ⟨rfl, rfl, Prod.ext kind ?_, List.append_cancel_left texts⟩
  by_cases invalid : token.kind = .invalid
  · exact (first.message invalid).trans (second.message (kind ▸ invalid)).symm
  · exact lexeme invalid

theorem Reading.eq {s next next' : Scanner} {gap taken gap' taken' : List Char} {token token' : Token}
    (first : Reading s gap taken token next) (second : Reading s gap' taken' token' next') :
    token = token' ∧ next = next' := by
  obtain ⟨rfl, rfl, face, rest⟩ := first.alike second rfl
  have location : token.location = token'.location := first.location.trans second.location.symm
  have filename : next.filename = next'.filename := first.filename.trans second.filename.symm
  have position : next.position = next'.position := first.position.trans second.position.symm
  have tokenStart : next.tokenStart = next'.tokenStart := first.tokenStart.trans second.tokenStart.symm
  rw [Token.face, Token.face, Prod.mk.injEq] at face
  cases token; cases token'; cases next; cases next'
  simp_all

theorem readToken_of_nil {s : Scanner} (text : s.rest = []) :
    s.readToken = (⟨.endOfInput, "", s.position.inText s.filename⟩, { s with tokenStart := s.position.offset }) := by
  simp [readToken, text]

theorem readToken_of_digit {s : Scanner} {c : Char} {rest : List Char} (text : s.rest = c :: rest)
    (digit : isDigit c = true) :
    s.readToken =
      (⟨.number, String.ofList (s.rest.takeWhile isDigit), s.position.inText s.filename⟩,
        ⟨s.filename, s.rest.dropWhile isDigit, s.position.after (s.rest.takeWhile isDigit), s.position.offset⟩) := by
  simp [readToken, readWhile, text, digit]

theorem readToken_of_operator {s : Scanner} {c : Char} {rest : List Char} {kind : Token.Kind}
    (text : s.rest = c :: rest) (found : Token.Kind.ofOperator? c = some kind) :
    s.readToken =
      (⟨kind, String.ofList [c], s.position.inText s.filename⟩,
        ⟨s.filename, rest, s.position.step c, s.position.offset⟩) := by
  simp [readToken, text, (class_of_operator found).2, found]

theorem readToken_of_foreign {s : Scanner} {c : Char} {rest : List Char} (text : s.rest = c :: rest)
    (digit : isDigit c = false) (operator : Token.Kind.ofOperator? c = none) :
    s.readToken =
      (⟨.invalid, unexpectedCharacter, s.position.inText s.filename⟩,
        ⟨s.filename, rest, s.position.step c, s.position.offset⟩) := by
  simp [readToken, text, digit, operator]

theorem head_dropWhile {p : Char → Bool} {text : List Char} : ∀ c ∈ (text.dropWhile p).head?, p c = false := by
  intro c first
  have stops := List.head?_dropWhile_not p text
  rw [first] at stops
  exact stops

theorem reading_readToken {s : Scanner} (clear : ∀ c ∈ s.rest.head?, isWhitespace c = false) :
    ∃ taken, Reading s [] taken s.readToken.1 s.readToken.2 := by
  have blank : ∀ c ∈ ([] : List Char), isWhitespace c = true := by simp
  cases text : s.rest with
  | nil =>
    rw [readToken_of_nil text]
    refine ⟨[], blank, rfl, ?_, nofun, rfl, rfl, rfl, rfl⟩
    rw [text]
    exact .endOfInput
  | cons c rest =>
    rw [text] at clear
    by_cases digit : isDigit c = true
    · rw [readToken_of_digit text digit]
      refine ⟨s.rest.takeWhile isDigit, blank, List.takeWhile_append_dropWhile.symm, .number ?_ ?_ head_dropWhile,
        nofun, rfl, rfl, rfl, rfl⟩
      · simp [text, digit]
      · exact fun d member => List.mem_takeWhile_imp member
    · have digit : isDigit c = false := by simpa using digit
      cases operator : Token.Kind.ofOperator? c with
      | some kind =>
        rw [readToken_of_operator text operator]
        refine ⟨[c], blank, text, .operator operator, fun invalid => ?_, rfl, rfl, rfl, rfl⟩
        exact absurd invalid (Token.Kind.ne_special operator).2.1
      | none =>
        rw [readToken_of_foreign text digit operator]
        have stray := isStray_iff.mpr ⟨digit, clear c rfl, operator⟩
        exact ⟨[c], blank, text, .invalid _ stray, fun _ => rfl, rfl, rfl, rfl, rfl⟩

theorem reading_scan (s : Scanner) : ∃ gap taken, Reading s gap taken s.scan.1 s.scan.2 := by
  obtain ⟨taken, reading⟩ := reading_readToken (s := s.skipWhitespace) head_dropWhile
  refine ⟨s.rest.takeWhile isWhitespace, taken, fun c member => List.mem_takeWhile_imp member, ?_, reading.munch,
    reading.message, reading.location, reading.filename, reading.position, reading.tokenStart⟩
  have split : s.rest.dropWhile isWhitespace = taken ++ s.scan.2.rest := reading.split
  rw [← split, List.takeWhile_append_dropWhile]

theorem Reading.scan_eq {s next : Scanner} {gap taken : List Char} {token : Token}
    (reading : Reading s gap taken token next) : s.scan = (token, next) := by
  obtain ⟨_, _, here⟩ := s.reading_scan
  obtain ⟨same, after⟩ := here.eq reading
  exact Prod.ext same after

theorem Reading.skip {s t next : Scanner} {front gap taken : List Char} {token : Token}
    (reading : Reading t gap taken token next) (blank : ∀ c ∈ front, isWhitespace c = true)
    (rest : s.rest = front ++ t.rest) (filename : t.filename = s.filename) (position : t.position = s.position.after front) :
    Reading s (front ++ gap) taken token next := by
  have place : s.position.after (front ++ gap) = t.position.after gap := by rw [Position.after_append, position]
  refine ⟨List.forall_mem_append.mpr ⟨blank, reading.blank⟩, ?_, reading.munch, reading.message, ?_,
    reading.filename.trans filename, ?_, ?_⟩
  · rw [rest, reading.split, List.append_assoc]
  · rw [place, ← filename, reading.location]
  · rw [place, reading.position]
  · rw [place, reading.tokenStart]

theorem Reading.exchange {s next : Scanner} {gap taken : List Char} {token : Token}
    (reading : Reading s gap taken token next) (more : token.kind ≠ .endOfInput) {other : List Char}
    (apart : token.kind = .number → ∀ c ∈ other.head?, isDigit c = false) :
    Reading { s with rest := gap ++ (taken ++ other) } gap taken token { next with rest := other } :=
  ⟨reading.blank, rfl, reading.munch.exchange more apart, reading.message, reading.location, reading.filename,
    reading.position, reading.tokenStart⟩

/-- The scanner has read the front of a text and is left with what is behind. -/
structure Within (text : List Char) (filename : String) (s : Scanner) : Prop where
  filename : s.filename = filename
  split : ∃ front, text = front ++ s.rest ∧ s.position = Position.origin.after front

namespace Within

variable {text : List Char} {filename : String} {s : Scanner}

theorem rest (within : Within text filename s) : s.rest = text.drop s.position.offset := by
  obtain ⟨front, split, position⟩ := within.split
  rw [position, Position.offset_after, split]
  simp [Position.origin]

theorem position (within : Within text filename s) :
    s.position = Position.origin.after (text.take s.position.offset) := by
  obtain ⟨front, split, position⟩ := within.split
  have length : s.position.offset = front.length := by simp [position, Position.origin]
  rw [length, split, List.take_left, position]

theorem offset_le (within : Within text filename s) : s.position.offset ≤ text.length := by
  obtain ⟨front, split, position⟩ := within.split
  simp [split, position, Position.origin]

theorem read {next : Scanner} (within : Within text filename s) (taken : List Char)
    (split : s.rest = taken ++ next.rest) (named : next.filename = s.filename)
    (position : next.position = s.position.after taken) : Within text filename next := by
  obtain ⟨front, whole, start⟩ := within.split
  refine ⟨named.trans within.filename, front ++ taken, ?_, ?_⟩
  · rw [whole, split, List.append_assoc]
  · rw [position, start, Position.after_append]

theorem scan (within : Within text filename s) : Within text filename s.scan.2 := by
  obtain ⟨gap, taken, reading⟩ := s.reading_scan
  refine within.read (gap ++ taken) ?_ reading.filename ?_
  · rw [reading.split, List.append_assoc]
  · rw [reading.position, Position.after_append]

theorem tokenizeOnto (within : Within text filename s) (found : Array Token) :
    Within text filename (s.tokenizeOnto found).2 := by
  induction s using scanInduction generalizing found with
  | ended s stop =>
    rw [tokenizeOnto_of_end _ stop]
    exact within.scan
  | more s stop ih =>
    rw [tokenizeOnto_of_more _ stop]
    exact ih within.scan _

theorem perform (within : Within text filename s) (command : Command) : Within text filename (s.perform command).2 := by
  cases command with
  | scan => exact within.scan
  | tokenize => exact within.tokenizeOnto _
  | peek | atEnd => exact within
  | advance =>
    cases rest : s.rest with
    | nil => simpa [Scanner.perform, advance?, rest] using within
    | cons c behind =>
      simp only [Scanner.perform, advance?, rest]
      exact within.read [c] rest rfl rfl
  | skip => exact within.read _ List.takeWhile_append_dropWhile.symm rfl rfl

end Within

def run (s : Scanner) (commands : List Command) : Scanner := commands.foldl (fun s command => (s.perform command).2) s

theorem within_ofSource (source filename : String) : Within source.toList filename (ofSource source filename) :=
  ⟨rfl, [], rfl, rfl⟩

theorem within_run (source filename : String) (commands : List Command) :
    Within source.toList filename ((ofSource source filename).run commands) := by
  have start := within_ofSource source filename
  rw [run]
  generalize ofSource source filename = s at start
  induction commands generalizing s with
  | nil => exact start
  | cons command commands ih => exact ih _ (start.perform command)

end Scanner

end Arith
