import Arith.Proofs.TokenTiling

namespace Arith

/-- A number would go on from the one text into the other. -/
def SplitsNumber (front back : List Char) : Prop := front.getLast?.any isDigit = true ∧ back.head?.any isDigit = true

instance (front back : List Char) : Decidable (SplitsNumber front back) :=
  inferInstanceAs (Decidable (front.getLast?.any isDigit = true ∧ back.head?.any isDigit = true))

theorem SplitsNumber.behind {text front back : List Char} (splits : SplitsNumber front back) :
    SplitsNumber (text ++ front) back := by
  obtain ⟨last, first⟩ := splits
  refine ⟨?_, first⟩
  obtain ⟨c, found, digit⟩ := (Option.any_eq_true _ _).mp last
  rw [List.getLast?_append, found]
  exact digit

theorem not_splitsNumber_blank {front gap back : List Char} (blank : ∀ c ∈ gap, isWhitespace c = true)
    (whole : ¬ SplitsNumber front back) : ¬ SplitsNumber front (gap ++ back) := by
  cases gap with
  | nil => exact whole
  | cons c gap =>
    rintro ⟨_, digit⟩
    have white := blank c List.mem_cons_self
    rw [not_whitespace_of_digit digit] at white
    cases white

namespace Scanner

theorem tokens_ne_nil (s : Scanner) : s.tokens ≠ [] := by
  obtain ⟨front, last, split, _⟩ := s.tokens_end_last
  rw [split]
  exact List.append_ne_nil_of_right_ne_nil _ (List.cons_ne_nil _ _)

theorem tokens_eq_of_scan_eq {s t : Scanner} (same : s.scan = t.scan) : s.tokens = t.tokens := by
  by_cases stop : t.scan.1.kind = .endOfInput
  · rw [tokens_of_end stop, tokens_of_end (by rwa [same]), same]
  · rw [tokens_of_more stop, tokens_of_more (by rwa [same]), same]

theorem tokens_skip {s t : Scanner} {front : List Char} (blank : ∀ c ∈ front, isWhitespace c = true)
    (rest : s.rest = front ++ t.rest) (filename : t.filename = s.filename) (position : t.position = s.position.after front) :
    s.tokens = t.tokens := by
  obtain ⟨gap, taken, reading⟩ := t.reading_scan
  exact tokens_eq_of_scan_eq (reading.skip blank rest filename position).scan_eq

theorem faces_congr {s t : Scanner} (same : s.rest = t.rest) : s.tokens.map Token.face = t.tokens.map Token.face := by
  induction s using scanInduction generalizing t with
  | ended s stop =>
    obtain ⟨_, _, here⟩ := s.reading_scan
    obtain ⟨_, _, there⟩ := t.reading_scan
    obtain ⟨_, _, face, _⟩ := here.alike there same
    have kind : s.scan.1.kind = t.scan.1.kind := congrArg Prod.fst face
    rw [tokens_of_end stop, tokens_of_end (kind ▸ stop), List.map_singleton, List.map_singleton, face]
  | more s more ih =>
    obtain ⟨_, _, here⟩ := s.reading_scan
    obtain ⟨_, _, there⟩ := t.reading_scan
    obtain ⟨_, _, face, rest⟩ := here.alike there same
    have kind : s.scan.1.kind = t.scan.1.kind := congrArg Prod.fst face
    have more' : t.scan.1.kind ≠ .endOfInput := kind ▸ more
    rw [tokens_of_more more, tokens_of_more more', List.map_cons, List.map_cons, face, ih rest]

def followedBy (s : Scanner) (back : List Char) : Scanner := { s with rest := s.rest ++ back }

def behind (s : Scanner) (back : List Char) : Scanner := ⟨s.filename, back, s.position.after s.rest, 0⟩

theorem behind_scan (s : Scanner) (back : List Char) : s.scan.2.behind back = s.behind back := by
  obtain ⟨gap, taken, reading⟩ := s.reading_scan
  rw [behind, behind, reading.filename, reading.position, reading.split, Position.after_append, Position.after_append]

variable {s : Scanner} {back : List Char}

theorem not_splitsNumber_scan (whole : ¬ SplitsNumber s.rest back) : ¬ SplitsNumber s.scan.2.rest back := by
  obtain ⟨gap, taken, reading⟩ := s.reading_scan
  intro splits
  apply whole
  rw [reading.split, ← List.append_assoc]
  exact splits.behind

theorem scan_followedBy (more : s.scan.1.kind ≠ .endOfInput) (whole : ¬ SplitsNumber s.rest back) :
    (s.followedBy back).scan = (s.scan.1, s.scan.2.followedBy back) := by
  obtain ⟨gap, taken, reading⟩ := s.reading_scan
  have apart : s.scan.1.kind = .number → ∀ c ∈ (s.scan.2.rest ++ back).head?, isDigit c = false := by
    intro number c first
    obtain ⟨some, digits, longest⟩ := reading.munch.of_number number
    cases rest : s.scan.2.rest with
    | cons d behind =>
      rw [rest] at first longest
      exact longest c first
    | nil =>
      -- the number ends where the front ends
      rw [rest] at first
      by_contra digit
      have first : back.head? = Option.some c := first
      apply whole
      constructor
      · rw [reading.split, rest, List.append_nil, List.getLast?_append, List.getLast?_eq_some_getLast some]
        exact digits _ (List.getLast_mem some)
      · rw [first]
        simpa using digit
  have moved := (reading.exchange more apart).scan_eq
  rw [followedBy, reading.split, List.append_assoc, List.append_assoc]
  exact moved

theorem tokens_append (whole : ¬ SplitsNumber s.rest back) :
    (s.followedBy back).tokens = s.tokens.dropLast ++ (s.behind back).tokens := by
  induction s using scanInduction with
  | ended s stop =>
    obtain ⟨gap, taken, reading⟩ := s.reading_scan
    obtain ⟨rfl, rest⟩ := reading.munch.of_end stop
    have text : s.rest = gap := by simpa [rest] using reading.split
    rw [tokens_of_end stop]
    refine tokens_skip reading.blank ?_ rfl ?_
    · rw [followedBy, behind, text]
    · rw [followedBy, behind, text]
  | more s more ih =>
    have scanned := scan_followedBy more whole
    rw [tokens_of_more (s := s.followedBy back) (by rwa [scanned]), scanned, ih (not_splitsNumber_scan whole),
      tokens_of_more more, behind_scan, List.dropLast_cons_of_ne_nil (tokens_ne_nil _), List.cons_append]

end Scanner

def faces (source filename : String) : List (Token.Kind × String) := (tokenize source filename).toList.map Token.face

theorem faces_filename (source filename filename' : String) : faces source filename = faces source filename' :=
  Scanner.faces_congr (s := .ofSource source filename) (t := .ofSource source filename') rfl

theorem faces_append {front back : String} (filename : String) (whole : ¬ SplitsNumber front.toList back.toList) :
    faces (front ++ back) filename = (faces front filename).dropLast ++ faces back filename := by
  let s := Scanner.ofSource front filename
  have text : Scanner.ofSource (front ++ back) filename = s.followedBy back.toList := by
    rw [Scanner.ofSource, String.toList_append]
    rfl
  have later : (s.behind back.toList).tokens.map Token.face = faces back filename := Scanner.faces_congr rfl
  calc faces (front ++ back) filename
      = (s.followedBy back.toList).tokens.map Token.face := by rw [← text]; rfl
    _ = s.tokens.dropLast.map Token.face ++ (s.behind back.toList).tokens.map Token.face := by
      rw [Scanner.tokens_append whole, List.map_append]
    _ = (faces front filename).dropLast ++ faces back filename := by
      rw [later, List.map_dropLast]
      rfl

theorem faces_blank {gap back : String} (filename : String) (blank : ∀ c ∈ gap.toList, isWhitespace c = true) :
    faces (gap ++ back) filename = faces back filename := by
  let t : Scanner := ⟨filename, back.toList, Position.origin.after gap.toList, 0⟩
  have skipped : (Scanner.ofSource (gap ++ back) filename).tokens = t.tokens :=
    Scanner.tokens_skip blank String.toList_append rfl rfl
  have same : t.tokens.map Token.face = faces back filename := Scanner.faces_congr rfl
  rw [← same, ← skipped]
  rfl

theorem faces_insert {front gap back : String} (filename filename' : String)
    (blank : ∀ c ∈ gap.toList, isWhitespace c = true) (whole : ¬ SplitsNumber front.toList back.toList) :
    faces (front ++ gap ++ back) filename = faces (front ++ back) filename' := by
  have wide : ¬ SplitsNumber front.toList (gap ++ back).toList := by
    rw [String.toList_append]
    exact not_splitsNumber_blank blank whole
  rw [String.append_assoc, faces_append filename wide, faces_blank filename blank, ← faces_append filename whole]
  exact faces_filename _ _ _

end Arith
