import Arith.Proofs.TokenReading

namespace Arith

theorem isDigit_of_mem_repr {n : Nat} {c : Char} (member : c ∈ n.repr.toList) : c.isDigit = true := by
  rw [Nat.toList_repr] at member
  exact Nat.isDigit_of_mem_toDigits (by decide) (by decide) member

theorem toList_toString_negSucc (n : Nat) : (toString (Int.negSucc n)).toList = '-' :: (n + 1).repr.toList := by
  show ("-" ++ (n + 1).repr).toList = _
  simp

theorem repr_injective {n m : Nat} (same : n.repr.toList = m.repr.toList) : n = m := by
  have read := congrArg (Nat.ofDigitChars 10 · 0) same
  simpa using read

theorem repr_ne_negative {n m : Nat} : n.repr.toList ≠ '-' :: m.repr.toList := by
  intro same
  have digit := isDigit_of_mem_repr (n := n) (c := '-') (by simp [same])
  revert digit
  decide

theorem toString_injective {value value' : Int} (same : (toString value).toList = (toString value').toList) :
    value = value' := by
  cases value with
  | ofNat n =>
    cases value' with
    | ofNat m => exact congrArg Int.ofNat (repr_injective same)
    | negSucc m => exact absurd (same.trans (toList_toString_negSucc m)) repr_ne_negative
  | negSucc n =>
    cases value' with
    | ofNat m => exact absurd (same.symm.trans (toList_toString_negSucc n)) repr_ne_negative
    | negSucc m =>
      rw [toList_toString_negSucc, toList_toString_negSucc] at same
      have next := repr_injective (List.cons.inj same).2
      exact congrArg Int.negSucc (Nat.succ.inj next)

def isNumeral (c : Char) : Bool := c.isDigit || c == '-'

theorem isNumeral_of_mem_toString (value : Int) : ∀ c ∈ (toString value).toList, isNumeral c = true := by
  intro c member
  cases value with
  | ofNat n => simp [isNumeral, isDigit_of_mem_repr member]
  | negSucc n =>
    rw [toList_toString_negSucc] at member
    rcases List.mem_cons.mp member with rfl | member
    · rfl
    · simp [isNumeral, isDigit_of_mem_repr member]

theorem isNumeral_head (value : Int) (behind : List Char) :
    ∀ c ∈ ((toString value).toList ++ behind).head?, isNumeral c = true := by
  have some : (toString value).toList ≠ [] := by
    cases value with
    | ofNat n => exact fun empty => Nat.repr_ne_empty (String.toList_eq_nil_iff.mp empty)
    | negSucc n =>
      rw [toList_toString_negSucc]
      exact List.cons_ne_nil _ _
  obtain ⟨d, text, split⟩ := List.exists_cons_of_ne_nil some
  have numeral := isNumeral_of_mem_toString value d (split ▸ List.mem_cons_self)
  rw [split]
  intro c first
  cases first
  exact numeral

theorem numeral_front {value value' : Int} {behind behind' : List Char}
    (stops : ∀ c ∈ behind.head?, isNumeral c = false) (stops' : ∀ c ∈ behind'.head?, isNumeral c = false)
    (same : (toString value).toList ++ behind = (toString value').toList ++ behind') :
    value = value' ∧ behind = behind' := by
  obtain ⟨text, rest⟩ := front_unique (isNumeral_of_mem_toString value)
    (isNumeral_of_mem_toString value') stops stops' same
  exact ⟨toString_injective text, rest⟩

end Arith
