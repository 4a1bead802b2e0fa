import Arith.Proofs.TokenReading

namespace Arith

namespace Token

/-- How many characters a token stands for. The lexeme of an invalid token is a message, not what it stands for. -/
def width (t : Token) : Nat := if t.kind = .invalid then 1 else t.lexeme.length

def Covers (t : Token) (k : Nat) : Prop := t.location.offset ≤ k ∧ k < t.location.offset + t.width

/-- The token is one with which the text goes on where the token is located. -/
def StandsIn (text : List Char) (t : Token) : Prop :=
  ∃ front taken behind, text = front ++ (taken ++ behind) ∧ t.location.offset = front.length ∧
    Munch taken behind t.kind t.lexeme

def sketch (t : Token) : Token.Kind × Int × String :=
  (t.kind, t.location.offset, if t.kind = .invalid then "" else t.lexeme)

theorem sketch_eq_iff {t u : Token} :
    t.sketch = u.sketch ↔
      t.kind = u.kind ∧ t.location.offset = u.location.offset ∧ (t.kind ≠ .invalid → t.lexeme = u.lexeme) := by
  simp only [sketch, Prod.mk.injEq]
  constructor
  · rintro ⟨kind, offset, lexeme⟩
    refine ⟨kind, offset, fun valid => ?_⟩
    rwa [if_neg valid, if_neg (kind ▸ valid)] at lexeme
  · rintro ⟨kind, offset, lexeme⟩
    refine ⟨kind, offset, ?_⟩
    rw [← kind]
    split
    · rfl
    · exact lexeme ‹_›

/-- The location tells lines and columns as they are, and an invalid token holds the message for it. -/
structure Genuine (text : List Char) (filename : String) (t : Token) : Prop where
  location : t.location = (Position.origin.after (text.take t.location.offset.toNat)).inText filename
  message : t.kind = .invalid → t.lexeme = unexpectedCharacter

end Token

/-- The tokens account for all of a text from `start` on: the last of them, and no other, is the end; they stand in
the text one behind the other, and what none of them stands for is whitespace. -/
structure Tiles (text : List Char) (start : Nat) (tokens : List Token) : Prop where
  ended : ∃ front last, tokens = front ++ [last] ∧ last.kind = .endOfInput ∧ ∀ t ∈ front, t.kind ≠ .endOfInput
  stands : ∀ t ∈ tokens, (start : Int) ≤ t.location.offset ∧ t.StandsIn text
  apart : tokens.Pairwise fun (t u : Token) =>
    t.location.offset < u.location.offset ∧ t.location.offset + t.width ≤ u.location.offset
  blank : ∀ (k : Nat) (c : Char), start ≤ k → text[k]? = some c → (∀ t ∈ tokens, ¬ t.Covers k) → isWhitespace c = true

theorem Munch.width_eq {taken behind : List Char} {t : Token} (munch : Munch taken behind t.kind t.lexeme) :
    t.width = taken.length := by
  rw [Token.width]
  generalize t.kind = kind, t.lexeme = lexeme at munch
  cases munch with
  | endOfInput => rfl
  | number => simp
  | operator found => simp [(Token.Kind.ne_special found).2.1]
  | invalid => simp

namespace Tiles

variable {text : List Char} {start : Nat} {t : Token} {tokens : List Token}

theorem ne_nil (tiles : Tiles text start tokens) : tokens ≠ [] := by
  obtain ⟨front, last, split, _⟩ := tiles.ended
  rw [split]
  exact List.append_ne_nil_of_right_ne_nil front (List.cons_ne_nil last [])

theorem head (tiles : Tiles text start (t :: tokens)) :
    ∃ gap taken behind, (∀ c ∈ gap, isWhitespace c = true) ∧ text.drop start = gap ++ (taken ++ behind) ∧
      t.location.offset = ((start + gap.length : Nat) : Int) ∧ Munch taken behind t.kind t.lexeme := by
  obtain ⟨reached, front, taken, behind, split, offset, munch⟩ := tiles.stands t List.mem_cons_self
  have le : start ≤ front.length := by omega
  refine ⟨front.drop start, taken, behind, ?_, ?_, ?_, munch⟩
  · intro c member
    obtain ⟨i, found⟩ := List.mem_iff_getElem?.mp member
    rw [List.getElem?_drop] at found
    obtain ⟨bound, _⟩ := List.getElem?_eq_some_iff.mp found
    -- no token stands for a character in front of the first of them
    refine tiles.blank (start + i) c (Nat.le_add_right _ _) ?_ ?_
    · rw [split, List.getElem?_append_left bound, found]
    · intro u later covers
      have le : t.location.offset ≤ u.location.offset := by
        rcases List.mem_cons.mp later with rfl | later
        · exact Int.le_refl _
        · exact Int.le_of_lt ((List.pairwise_cons.mp tiles.apart).1 u later).1
      have covered := covers.1
      omega
  · rw [split, List.drop_append_of_le_length le]
  · rw [offset, List.length_drop]
    omega

theorem tail (tiles : Tiles text start (t :: tokens)) (more : t.kind ≠ .endOfInput) {next : Nat}
    (behind : t.location.offset + t.width = next) : Tiles text next tokens := by
  obtain ⟨first, others⟩ := List.pairwise_cons.mp tiles.apart
  have reached := (tiles.stands t List.mem_cons_self).1
  refine ⟨?_, ?_, others, ?_⟩
  · obtain ⟨front, last, split, isEnd, rest⟩ := tiles.ended
    cases front with
    | nil =>
      cases split
      exact absurd isEnd more
    | cons u front =>
      cases split
      exact ⟨front, last, rfl, isEnd, fun v member => rest v (List.mem_cons_of_mem _ member)⟩
  · intro u member
    rw [← behind]
    exact ⟨(first u member).2, (tiles.stands u (List.mem_cons_of_mem t member)).2⟩
  · intro k c le found free
    refine tiles.blank k c (by omega) found fun u member covers => ?_
    rcases List.mem_cons.mp member with rfl | member
    · have covered := covers.2
      omega
    · exact free u member covers

theorem eq_nil_of_end (tiles : Tiles text start (t :: tokens)) (stop : t.kind = .endOfInput) : tokens = [] := by
  obtain ⟨front, last, split, _, rest⟩ := tiles.ended
  cases front with
  | nil =>
    cases split
    rfl
  | cons u front =>
    cases split
    exact absurd stop (rest _ List.mem_cons_self)

section Cons

variable {gap taken behind : List Char} (blank : ∀ c ∈ gap, isWhitespace c = true)
variable (le : start ≤ text.length) (split : text.drop start = gap ++ (taken ++ behind))
variable (offset : t.location.offset = ((start + gap.length : Nat) : Int))
variable (munch : Munch taken behind t.kind t.lexeme)

include le split offset munch in
theorem standsIn_of_split : t.StandsIn text := by
  refine ⟨text.take start ++ gap, taken, behind, ?_, ?_, munch⟩
  · rw [List.append_assoc, ← split, List.take_append_drop]
  · rw [offset, List.length_append, List.length_take, Nat.min_eq_left le]

include blank split offset in
theorem blank_of_split {k : Nat} {c : Char} (beyond : start ≤ k) (below : (k : Int) < t.location.offset)
    (found : text[k]? = some c) : isWhitespace c = true := by
  have inside : k - start < gap.length := by omega
  have there : (text.drop start)[k - start]? = some c := by
    rw [List.getElem?_drop, Nat.add_sub_cancel' beyond, found]
  rw [split, List.getElem?_append_left inside] at there
  exact blank c (List.mem_of_getElem? there)

include blank le split offset munch

theorem singleton (stop : t.kind = .endOfInput) : Tiles text start [t] := by
  obtain ⟨rfl, rfl⟩ := munch.of_end stop
  refine ⟨⟨[], t, rfl, stop, by simp⟩, ?_, List.pairwise_singleton _ _, ?_⟩
  · rintro u member
    rw [List.mem_singleton.mp member]
    exact ⟨by omega, standsIn_of_split le split offset munch⟩
  · intro k c beyond found _
    have bound := (List.getElem?_eq_some_iff.mp found).1
    have length := congrArg List.length split
    simp only [List.length_drop, List.length_append, List.length_nil, Nat.add_zero] at length
    exact blank_of_split blank split offset beyond (by omega) found

theorem cons (more : t.kind ≠ .endOfInput) {next : Nat} (after : t.location.offset + t.width = next)
    (tiles : Tiles text next tokens) : Tiles text start (t :: tokens) := by
  have wide : 0 < t.width := by
    rw [munch.width_eq]
    exact List.length_pos_iff.mpr (munch.taken_ne_nil more)
  refine ⟨?_, ?_, ?_, ?_⟩
  · obtain ⟨front, last, same, isEnd, rest⟩ := tiles.ended
    exact ⟨t :: front, last, by rw [same, List.cons_append], isEnd, List.forall_mem_cons.mpr ⟨more, rest⟩⟩
  · intro u member
    rcases List.mem_cons.mp member with rfl | member
    · exact ⟨by omega, standsIn_of_split le split offset munch⟩
    · obtain ⟨reached, stands⟩ := tiles.stands u member
      exact ⟨by omega, stands⟩
  · refine List.pairwise_cons.mpr ⟨fun u member => ?_, tiles.apart⟩
    have reached := (tiles.stands u member).1
    omega
  · intro k c beyond found free
    have uncovered := free t List.mem_cons_self
    -- what `t` does not stand for lies in the gap in front of it, or behind it with the other tokens
    rcases Int.lt_or_le k t.location.offset with below | above
    · exact blank_of_split blank split offset beyond below found
    · have past : next ≤ k := by
        by_contra before
        exact uncovered ⟨above, by omega⟩
      exact tiles.blank k c past found fun u member => free u (List.mem_cons_of_mem t member)

end Cons

end Tiles

namespace Scanner

section Reading

variable {s next : Scanner} {gap taken : List Char} {token : Token} (reading : Reading s gap taken token next)

include reading

theorem Reading.offset : token.location.offset = ((s.position.offset + gap.length : Nat) : Int) := by
  rw [reading.location]
  simp [Position.inText]

theorem Reading.offset_next : token.location.offset + token.width = next.position.offset := by
  rw [reading.offset, reading.munch.width_eq, reading.position]
  simp

theorem Reading.drop {text : List Char} {filename : String} (within : Within text filename s) :
    text.drop s.position.offset = gap ++ (taken ++ next.rest) := within.rest.symm.trans reading.split

theorem Reading.genuine {text : List Char} {filename : String} (within : Within text filename s) :
    token.Genuine text filename := by
  refine ⟨?_, reading.message⟩
  have before : Within text filename ⟨s.filename, taken ++ next.rest, s.position.after gap, s.tokenStart⟩ :=
    within.read gap reading.split rfl rfl
  have offset : token.location.offset.toNat = (s.position.after gap).offset := by
    rw [reading.offset, Int.toNat_natCast, Position.offset_after]
  rw [offset, ← before.position, reading.location, within.filename]

end Reading

variable {text : List Char} {filename : String} {s : Scanner}

theorem tiles_tokens (within : Within text filename s) : Tiles text s.position.offset s.tokens := by
  induction s using scanInduction with
  | ended s stop =>
    obtain ⟨gap, taken, reading⟩ := s.reading_scan
    rw [tokens_of_end stop]
    exact .singleton reading.blank within.offset_le (reading.drop within) reading.offset reading.munch stop
  | more s stop ih =>
    obtain ⟨gap, taken, reading⟩ := s.reading_scan
    rw [tokens_of_more stop]
    exact .cons reading.blank within.offset_le (reading.drop within) reading.offset reading.munch stop
      reading.offset_next (ih within.scan)

theorem genuine_tokens (within : Within text filename s) : ∀ t ∈ s.tokens, t.Genuine text filename := by
  induction s using scanInduction with
  | ended s stop =>
    obtain ⟨gap, taken, reading⟩ := s.reading_scan
    rw [tokens_of_end stop]
    exact List.forall_mem_singleton.mpr (reading.genuine within)
  | more s stop ih =>
    obtain ⟨gap, taken, reading⟩ := s.reading_scan
    rw [tokens_of_more stop]
    exact List.forall_mem_cons.mpr ⟨reading.genuine within, ih within.scan⟩

theorem tiles_tokenize (source filename : String) : Tiles source.toList 0 (Arith.tokenize source filename).toList :=
  tiles_tokens (within_ofSource source filename)

theorem head_eq_scan (within : Within text filename s) {t : Token} {tokens : List Token}
    (tiles : Tiles text s.position.offset (t :: tokens)) :
    t.sketch = s.scan.1.sketch ∧ t.location.offset + t.width = s.scan.2.position.offset := by
  obtain ⟨gap, taken, reading⟩ := s.reading_scan
  obtain ⟨gap', taken', behind', blank, split, offset, munch⟩ := tiles.head
  rw [reading.drop within] at split
  -- what is left splits into whitespace and a token in one way only
  obtain ⟨rfl, texts⟩ := front_unique reading.blank blank reading.munch.head_not_whitespace
    munch.head_not_whitespace split
  obtain ⟨rfl, kind, lexeme⟩ := reading.munch.unique munch texts
  have same : t.location.offset = s.scan.1.location.offset := offset.trans reading.offset.symm
  refine ⟨?_, ?_⟩
  · exact (Token.sketch_eq_iff.mpr ⟨kind, same.symm, lexeme⟩).symm
  · rw [← reading.offset_next, same, munch.width_eq, reading.munch.width_eq]

theorem sketch_eq_of_tiles (within : Within text filename s) {tokens : List Token}
    (tiles : Tiles text s.position.offset tokens) : tokens.map Token.sketch = s.tokens.map Token.sketch := by
  induction s using scanInduction generalizing tokens with
  | ended s stop =>
    obtain ⟨t, behind, rfl⟩ := List.exists_cons_of_ne_nil tiles.ne_nil
    obtain ⟨same, _⟩ := head_eq_scan within tiles
    have kind : t.kind = .endOfInput := (congrArg Prod.fst same).trans stop
    rw [tokens_of_end stop, tiles.eq_nil_of_end kind, List.map_singleton, List.map_singleton, same]
  | more s stop ih =>
    obtain ⟨t, behind, rfl⟩ := List.exists_cons_of_ne_nil tiles.ne_nil
    obtain ⟨same, next⟩ := head_eq_scan within tiles
    have kind : t.kind ≠ .endOfInput := fun isEnd => stop ((congrArg Prod.fst same).symm.trans isEnd)
    rw [tokens_of_more stop, List.map_cons, List.map_cons, same, ih within.scan (tiles.tail kind next)]

end Scanner

theorem Token.Genuine.eq {text : List Char} {filename : String} {t u : Token} (first : t.Genuine text filename)
    (second : u.Genuine text filename) (same : t.sketch = u.sketch) : t = u := by
  obtain ⟨kind, offset, lexeme⟩ := Token.sketch_eq_iff.mp same
  have location : t.location = u.location := by rw [first.location, second.location, offset]
  have lexeme : t.lexeme = u.lexeme := by
    by_cases invalid : t.kind = .invalid
    · rw [first.message invalid, second.message (kind ▸ invalid)]
    · exact lexeme invalid
  cases t; cases u
  cases kind; cases location; cases lexeme
  rfl

theorem eq_of_sketches {text : List Char} {filename : String} {first second : List Token}
    (genuine : ∀ t ∈ first, t.Genuine text filename) (genuine' : ∀ t ∈ second, t.Genuine text filename)
    (same : first.map Token.sketch = second.map Token.sketch) : first = second := by
  induction first generalizing second with
  | nil => exact (List.map_eq_nil_iff.mp same.symm).symm
  | cons t first ih =>
    obtain ⟨u, rest, rfl, head, tail⟩ := List.map_eq_cons_iff.mp same.symm
    obtain ⟨here, others⟩ := List.forall_mem_cons.mp genuine
    obtain ⟨there, others'⟩ := List.forall_mem_cons.mp genuine'
    rw [here.eq there head.symm, ih others others' tail.symm]

def Token.slice (text : List Char) (t : Token) : List Char :=
  if t.kind = .invalid then (text.drop t.location.offset.toNat).take 1 else t.lexeme.toList

/-- Puts the text together from the tokens and from what lies between them. -/
def rebuild (text : List Char) : (start : Nat) → List Token → List Char
  | _, [] => []
  | start, t :: tokens =>
    (text.take t.location.offset.toNat).drop start ++
      (t.slice text ++ rebuild text (t.location.offset.toNat + t.width) tokens)

theorem Munch.slice_eq {taken behind : List Char} {t : Token} (munch : Munch taken behind t.kind t.lexeme)
    {text : List Char} (split : text.drop t.location.offset.toNat = taken ++ behind) : t.slice text = taken := by
  rw [Token.slice, split]
  generalize t.kind = kind, t.lexeme = lexeme at munch
  cases munch with
  | endOfInput => rfl
  | number => simp
  | operator found => simp [(Token.Kind.ne_special found).2.1]
  | invalid => simp

theorem Tiles.rebuild_eq {text : List Char} {start : Nat} {tokens : List Token} (tiles : Tiles text start tokens) :
    rebuild text start tokens = text.drop start := by
  induction tokens generalizing start with
  | nil => exact absurd rfl tiles.ne_nil
  | cons t tokens ih =>
    obtain ⟨gap, taken, behind, _, split, offset, munch⟩ := tiles.head
    have place : t.location.offset.toNat = start + gap.length := by rw [offset, Int.toNat_natCast]
    have there : text.drop t.location.offset.toNat = taken ++ behind := by
      rw [place, ← List.drop_drop, split, List.drop_left]
    have before : (text.take t.location.offset.toNat).drop start = gap := by
      rw [place, List.drop_take, Nat.add_sub_cancel_left, split, List.take_left]
    rw [rebuild, before, munch.slice_eq there, split]
    congr 2
    by_cases stop : t.kind = .endOfInput
    · rw [tiles.eq_nil_of_end stop, (munch.of_end stop).2, rebuild]
    · have next : t.location.offset + t.width = ((t.location.offset.toNat + t.width : Nat) : Int) := by omega
      rw [ih (tiles.tail stop next), ← List.drop_drop, there, munch.width_eq, List.drop_left]

/-- However the scanner came to where it stands, its tokens tile what is left of the text, no other tokens do, and
together with the whitespace between them they give the text back. -/
theorem tokenize_tiles (source filename : String) (commands : List Scanner.Command) :
    let s := (Scanner.ofSource source filename).run commands
    Tiles source.toList s.position.offset s.tokenize.1.toList ∧
      (∀ t ∈ s.tokenize.1, t.Genuine source.toList filename) ∧
      (∀ tokens, Tiles source.toList s.position.offset tokens →
        tokens.map Token.sketch = s.tokenize.1.toList.map Token.sketch) ∧
      (∀ tokens, Tiles source.toList s.position.offset tokens → (∀ t ∈ tokens, t.Genuine source.toList filename) →
        tokens = s.tokenize.1.toList) ∧
      rebuild source.toList s.position.offset s.tokenize.1.toList = source.toList.drop s.position.offset := by
  have within := Scanner.within_run source filename commands
  intro s
  have tiles := Scanner.tiles_tokens within
  have genuine := Scanner.genuine_tokens within
  refine ⟨tiles, fun t member => genuine t (Array.mem_toList_iff.mpr member),
    fun tokens => Scanner.sketch_eq_of_tiles within, fun tokens other located => ?_, tiles.rebuild_eq⟩
  exact eq_of_sketches located genuine (Scanner.sketch_eq_of_tiles within other)

end Arith
