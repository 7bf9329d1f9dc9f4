import Script.Character.Blank
import Script.Character.Letter
import Script.Character.Numeral
/-!
# Blanks, letters and digits

No character is of two of these kinds.
-/

namespace Script.Character

theorem Ranges.holds_eq_false {ranges others : Ranges}
    (apart : ∀ range ∈ ranges, ∀ other ∈ others, range.2 < other.1 ∨ other.2 < range.1) {c : Char}
    (h : ranges.holds c = true) : others.holds c = false := by
  obtain ⟨range, mem, le, ge⟩ := (ranges.holds_iff c).1 h
  rw [Bool.eq_false_iff]
  intro hother
  obtain ⟨other, mem', le', ge'⟩ := (others.holds_iff c).1 hother
  have := apart range mem other mem'
  omega

theorem toNat_le_of_isDigit {c : Char} (h : c.isDigit = true) : 48 ≤ c.toNat ∧ c.toNat ≤ 57 := by
  simp only [Char.isDigit, Bool.and_eq_true, decide_eq_true_eq, UInt32.le_iff_toNat_le] at h
  exact h

theorem le_toNat_of_isAlpha {c : Char} (h : c.isAlpha = true) : 65 ≤ c.toNat := by
  have hcases : (c.isUpper || c.isLower) = true := h
  rcases Bool.or_eq_true_iff.1 hcases with hupper | hlower
  · have hbounds : 65 ≤ c.toNat ∧ c.toNat ≤ 90 := of_decide_eq_true hupper
    exact hbounds.1
  · have hbound : 97 ≤ c.toNat := of_decide_eq_true (Bool.and_eq_true_iff.1 hlower).1
    omega

theorem isLetter_eq_false_of_isBlank {c : Char} (h : isBlank c = true) : isLetter c = false := by
  have apart : ∀ range ∈ blankRanges, ∀ other ∈ letterRanges,
      range.2 < other.1 ∨ other.2 < range.1 := by decide +kernel
  have low : ∀ range ∈ blankRanges, range.2 < 65 ∨ 128 ≤ range.1 := by decide
  by_cases hascii : c.toNat < 0x80
  · rw [isLetter_of_ascii hascii, Bool.eq_false_iff]
    intro halpha
    have := le_toNat_of_isAlpha halpha
    obtain ⟨range, mem, le, ge⟩ := (blankRanges.holds_iff c).1 h
    have := low range mem
    omega
  · rw [isLetter, if_neg hascii]
    exact Ranges.holds_eq_false apart h

theorem isLetter_eq_false_of_isDigit {c : Char} (h : c.isDigit = true) : isLetter c = false := by
  have := toNat_le_of_isDigit h
  rw [isLetter_of_ascii (by omega), Bool.eq_false_iff]
  intro halpha
  have := le_toNat_of_isAlpha halpha
  omega

theorem isBlank_eq_false_of_isDigit {c : Char} (h : c.isDigit = true) : isBlank c = false := by
  have apart : ∀ range ∈ blankRanges, range.2 < 48 ∨ 57 < range.1 := by decide
  have := toNat_le_of_isDigit h
  rw [Bool.eq_false_iff]
  intro hblank
  obtain ⟨range, mem, le, ge⟩ := (blankRanges.holds_iff c).1 hblank
  have := apart range mem
  omega

theorem isNumeral_eq_false_of_isBlank {c : Char} (h : isBlank c = true) : isNumeral c = false := by
  have apart : ∀ range ∈ blankRanges, ∀ other ∈ numeralRanges,
      range.2 < other.1 ∨ other.2 < range.1 := by decide +kernel
  by_cases hascii : c.toNat < 0x80
  · rw [isNumeral_of_ascii hascii, Bool.eq_false_iff]
    intro hdigit
    rw [isBlank_eq_false_of_isDigit hdigit] at h
    cases h
  · rw [isNumeral, if_neg hascii]
    exact Ranges.holds_eq_false apart h

end Script.Character
