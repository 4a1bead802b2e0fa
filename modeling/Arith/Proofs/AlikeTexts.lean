import Arith.Proofs.TokenTiling
import Mathlib.Data.List.Forall2

namespace Arith

/-- Tokens do not tell the two characters apart. -/
structure Indistinct (c d : Char) : Prop where
  digit : isDigit c = true ∨ isDigit d = true → c = d
  operator : (Token.Kind.ofOperator? c).isSome = true ∨ (Token.Kind.ofOperator? d).isSome = true → c = d
  white : isWhitespace c = isWhitespace d
  stray : isStray c = isStray d

namespace Indistinct

theorem refl (c : Char) : Indistinct c c := ⟨fun _ => rfl, fun _ => rfl, rfl, rfl⟩

theorem of_others {c d : Char} (digit : isDigit c = false) (digit' : isDigit d = false)
    (operator : Token.Kind.ofOperator? c = none) (operator' : Token.Kind.ofOperator? d = none)
    (white : isWhitespace c = isWhitespace d) : Indistinct c d where
  digit some := by simp [digit, digit'] at some
  operator some := by simp [operator, operator'] at some
  white := white
  stray := by simp [isStray, digit, digit', operator, operator', white]

theorem of_stray {c d : Char} (stray : isStray c = true) (stray' : isStray d = true) : Indistinct c d := by
  obtain ⟨digit, white, operator⟩ := isStray_iff.mp stray
  obtain ⟨digit', white', operator'⟩ := isStray_iff.mp stray'
  exact of_others digit digit' operator operator' (white.trans white'.symm)

theorem of_whitespace {c d : Char} (white : isWhitespace c = true) (white' : isWhitespace d = true) :
    Indistinct c d := by
  obtain ⟨digit, operator⟩ := class_of_whitespace white
  obtain ⟨digit', operator'⟩ := class_of_whitespace white'
  exact of_others digit digit' operator operator' (white.trans white'.symm)

end Indistinct

def AlikeTexts (text other : List Char) : Prop := List.Forall₂ Indistinct text other

namespace AlikeTexts

theorem refl (text : List Char) : AlikeTexts text text := List.forall₂_same.mpr fun c _ => .refl c

theorem append {front front' behind behind' : List Char} (first : AlikeTexts front front')
    (second : AlikeTexts behind behind') : AlikeTexts (front ++ behind) (front' ++ behind') :=
  List.rel_append first second

theorem of_blank {gap gap' : List Char} (blank : ∀ c ∈ gap, isWhitespace c = true)
    (blank' : ∀ c ∈ gap', isWhitespace c = true) (length : gap.length = gap'.length) : AlikeTexts gap gap' := by
  refine List.forall₂_iff_zip.mpr ⟨length, fun member => ?_⟩
  obtain ⟨first, second⟩ := List.of_mem_zip member
  exact .of_whitespace (blank _ first) (blank' _ second)

theorem of_digits {taken taken' : List Char} (alike : AlikeTexts taken taken')
    (digits : ∀ c ∈ taken, isDigit c = true) : taken' = taken := by
  induction alike with
  | nil => rfl
  | cons first _ ih =>
    obtain ⟨digit, others⟩ := List.forall_mem_cons.mp digits
    rw [ih others, first.digit (.inl digit)]

theorem split {front behind other : List Char} (alike : AlikeTexts (front ++ behind) other) :
    ∃ front' behind', other = front' ++ behind' ∧ AlikeTexts front front' ∧ AlikeTexts behind behind' := by
  induction front generalizing other with
  | nil => exact ⟨[], other, rfl, .nil, alike⟩
  | cons c front ih =>
    obtain ⟨d, rest, first, others, rfl⟩ := List.forall₂_cons_left_iff.mp alike
    obtain ⟨front', behind', rfl, inside, outside⟩ := ih others
    exact ⟨d :: front', behind', rfl, .cons first inside, outside⟩

theorem getElem? {text other : List Char} (alike : AlikeTexts text other) {k : Nat} {d : Char}
    (found : other[k]? = some d) : ∃ c, text[k]? = some c ∧ Indistinct c d := by
  induction alike generalizing k with
  | nil => cases found
  | @cons c _ text other first others ih =>
    cases k with
    | zero =>
      cases found
      exact ⟨c, rfl, first⟩
    | succ k =>
      rw [List.getElem?_cons_succ] at found ⊢
      exact ih found

end AlikeTexts

theorem Munch.alike {taken behind taken' behind' : List Char} {kind : Token.Kind} {lexeme lexeme' : String}
    (first : Munch taken behind kind lexeme) (second : Munch taken' behind' kind lexeme')
    (same : kind ≠ .invalid → lexeme = lexeme') : AlikeTexts taken taken' := by
  by_cases invalid : kind = .invalid
  · obtain ⟨c, rfl, stray⟩ := first.of_invalid invalid
    obtain ⟨d, rfl, stray'⟩ := second.of_invalid invalid
    exact .cons (.of_stray stray stray') .nil
  · have text := first.front_eq.2 invalid
    have text' := second.front_eq.2 invalid
    rw [text, text'] at same
    rw [String.ofList_injective (same invalid)]
    exact .refl taken'

theorem drop_of_split {text gap taken behind : List Char} {start : Nat}
    (split : text.drop start = gap ++ (taken ++ behind)) : text.drop (start + gap.length + taken.length) = behind := by
  rw [← List.drop_drop, ← List.drop_drop, split, List.drop_left, List.drop_left]

theorem Tiles.alike {text other : List Char} {start : Nat} {tokens tokens' : List Token}
    (tiles : Tiles text start tokens) (tiles' : Tiles other start tokens')
    (same : tokens.map Token.sketch = tokens'.map Token.sketch) :
    AlikeTexts (text.drop start) (other.drop start) := by
  induction tokens generalizing start tokens' with
  | nil => exact absurd rfl tiles.ne_nil
  | cons t tokens ih =>
    obtain ⟨u, tokens', rfl, first, others⟩ := List.map_eq_cons_iff.mp same.symm
    obtain ⟨kind, place, lexeme⟩ := Token.sketch_eq_iff.mp first.symm
    obtain ⟨gap, taken, behind, blank, split, offset, munch⟩ := tiles.head
    obtain ⟨gap', taken', behind', blank', split', offset', munch'⟩ := tiles'.head
    have gaps : AlikeTexts gap gap' := .of_blank blank blank' (by omega)
    have takens : AlikeTexts taken taken' := munch.alike (kind ▸ munch') lexeme
    rw [split, split']
    refine gaps.append (takens.append ?_)
    by_cases stop : t.kind = .endOfInput
    · rw [(munch.of_end stop).2, (munch'.of_end (kind ▸ stop)).2]
      exact .refl []
    · -- both texts go on at the same place
      have wide := munch.width_eq
      have wide' := munch'.width_eq
      have length := takens.length_eq
      have length' := gaps.length_eq
      have same_place : start + gap'.length + taken'.length = start + gap.length + taken.length := by omega
      have rest : Tiles text (start + gap.length + taken.length) tokens := tiles.tail stop (by omega)
      have rest' : Tiles other (start + gap.length + taken.length) tokens' := tiles'.tail (kind ▸ stop) (by omega)
      rw [← drop_of_split split, ← drop_of_split split', same_place]
      exact ih rest rest' others.symm

theorem Munch.of_alike {taken behind taken' behind' : List Char} {kind : Token.Kind} {lexeme : String}
    (munch : Munch taken behind kind lexeme) (inside : AlikeTexts taken taken') (outside : AlikeTexts behind behind') :
    Munch taken' behind' kind lexeme := by
  cases munch with
  | endOfInput =>
    rw [List.forall₂_nil_left_iff.mp inside, List.forall₂_nil_left_iff.mp outside]
    exact .endOfInput
  | number some digits longest =>
    rw [inside.of_digits digits]
    refine .number some digits fun d first => ?_
    rw [List.head?_eq_getElem?] at first
    obtain ⟨c, found, same⟩ := outside.getElem? first
    rw [← List.head?_eq_getElem?] at found
    by_contra digit
    have equal := same.digit (.inr (by simpa using digit))
    rw [← equal, longest c found] at digit
    exact digit rfl
  | operator found =>
    obtain ⟨d, rest, same, others, rfl⟩ := List.forall₂_cons_left_iff.mp inside
    rw [List.forall₂_nil_left_iff.mp others, ← same.operator (.inl (by simp [found]))]
    exact .operator found
  | invalid _ stray =>
    obtain ⟨d, rest, same, others, rfl⟩ := List.forall₂_cons_left_iff.mp inside
    rw [List.forall₂_nil_left_iff.mp others]
    exact .invalid _ (same.stray ▸ stray)

theorem Token.StandsIn.of_alike {text other : List Char} {t : Token} (stands : t.StandsIn text)
    (alike : AlikeTexts text other) : t.StandsIn other := by
  obtain ⟨front, taken, behind, rfl, offset, munch⟩ := stands
  obtain ⟨front', rest, rfl, before, after⟩ := alike.split
  obtain ⟨taken', behind', rfl, inside, outside⟩ := after.split
  have length := before.length_eq
  exact ⟨front', taken', behind', rfl, by omega, munch.of_alike inside outside⟩

theorem Tiles.of_alike {text other : List Char} {start : Nat} {tokens : List Token} (tiles : Tiles text start tokens)
    (alike : AlikeTexts text other) : Tiles other start tokens where
  ended := tiles.ended
  stands t member := ⟨(tiles.stands t member).1, (tiles.stands t member).2.of_alike alike⟩
  apart := tiles.apart
  blank k d beyond found free := by
    obtain ⟨c, there, same⟩ := alike.getElem? found
    rw [← same.white]
    exact tiles.blank k c beyond there free

theorem alikeTexts_iff_sketches (text other filename filename' : String) :
    AlikeTexts text.toList other.toList ↔
      (tokenize text filename).toList.map Token.sketch = (tokenize other filename').toList.map Token.sketch := by
  have tiles := Scanner.tiles_tokenize text filename
  have tiles' := Scanner.tiles_tokenize other filename'
  constructor
  · intro alike
    exact Scanner.sketch_eq_of_tiles (Scanner.within_ofSource other filename') (tiles.of_alike alike)
  · intro same
    exact tiles.alike tiles' same

end Arith
