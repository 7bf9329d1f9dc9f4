import Script.Integer
/-!
# Numerals read back

Every integer of the language is read back from the decimal numeral that is written for it.
-/

namespace Script.Integer

theorem isDigit_toDigits (n : Nat) : ∀ c ∈ Nat.toDigits 10 n, c.isDigit = true :=
  fun _ hc => Nat.isDigit_of_mem_toDigits (by omega) (by omega) hc

theorem digitsValue_toDigits (n : Nat) : digitsValue (Nat.toDigits 10 n) = n :=
  Nat.ofDigitChars_ten_toDigits

theorem magnitude?_toDigits (n : Nat) : magnitude? (Nat.toDigits 10 n) = some n := by
  have hdigits := List.all_eq_true.2 (isDigit_toDigits n)
  rw [magnitude?, if_pos ⟨Nat.toDigits_ne_nil, hdigits⟩, digitsValue_toDigits]

theorem ofNumeral?_of_digits {digits : List Char} (h : digits.all Char.isDigit = true) :
    ofNumeral? digits = (magnitude? digits).bind fun n => ofInt? n := by
  unfold ofNumeral?
  split
  · simp at h
  · simp at h
  · rfl

theorem ofNumeral?_eq_none_iff {digits : List Char} (nonempty : digits ≠ [])
    (h : digits.all Char.isDigit = true) :
    ofNumeral? digits = none ↔ 9223372036854775807 < digitsValue digits := by
  rw [ofNumeral?_of_digits h, magnitude?, if_pos ⟨nonempty, h⟩, Option.bind_some,
    ofInt?_eq_none_iff]
  omega

theorem toList_render_of_nonneg {i : Integer} (h : 0 ≤ i.val) :
    i.render.toList = Nat.toDigits 10 i.val.toNat := by
  rw [render, Int.toString_eq_repr, Int.repr_eq_if, if_pos h, Nat.toList_repr]

theorem toList_render_of_neg {i : Integer} (h : i.val < 0) :
    i.render.toList = '-' :: Nat.toDigits 10 (-i.val).toNat := by
  rw [render, Int.toString_eq_repr, Int.repr_eq_if, if_neg (by omega), String.toList_append,
    Nat.toList_repr]
  rfl

theorem ofNumeral?_render (i : Integer) : ofNumeral? i.render.toList = some i := by
  by_cases h : 0 ≤ i.val
  · rw [toList_render_of_nonneg h, ofNumeral?_of_digits (List.all_eq_true.2 (isDigit_toDigits _)),
      magnitude?_toDigits, Option.bind_some, Int.toNat_of_nonneg h, ofInt?_val]
  · rw [toList_render_of_neg (by omega), ofNumeral?, magnitude?_toDigits, Option.bind_some,
      Int.toNat_of_nonneg (by omega), Int.neg_neg, ofInt?_val]

end Script.Integer
