/-!
# Integers of the language

The integers of the language are those of 64 bits in two's complement.  A computation is carried
out on `Int`, without bounds, and then brought back by `Integer.ofInt?`, which refuses a result
outside the range.  So no operation ever wraps around.
-/

namespace Script

structure Integer where
  val : Int
  least_le : -9223372036854775808 ≤ val
  le_greatest : val ≤ 9223372036854775807
deriving DecidableEq

namespace Integer

def ofInt? (n : Int) : Option Integer :=
  if h : -9223372036854775808 ≤ n ∧ n ≤ 9223372036854775807 then some ⟨n, h.1, h.2⟩ else none

@[ext] theorem ext {i j : Integer} (h : i.val = j.val) : i = j := by
  cases i; cases j; cases h; rfl

theorem ofInt?_eq_some_iff {n : Int} {i : Integer} : ofInt? n = some i ↔ i.val = n := by
  unfold ofInt?
  split
  · rw [Option.some.injEq, Integer.ext_iff]
    exact eq_comm
  · rename_i out
    refine ⟨by simp, ?_⟩
    rintro rfl
    exact absurd ⟨i.least_le, i.le_greatest⟩ out

@[simp] theorem ofInt?_val (i : Integer) : ofInt? i.val = some i :=
  ofInt?_eq_some_iff.2 rfl

theorem ofInt?_eq_none_iff {n : Int} :
    ofInt? n = none ↔ n < -9223372036854775808 ∨ 9223372036854775807 < n := by
  unfold ofInt?
  split <;> simp <;> omega

/-- The decimal numeral of `i`, with a sign only if `i` is negative. -/
def render (i : Integer) : String := toString i.val

/-- The number written by decimal digits, most significant first. -/
def digitsValue (digits : List Char) : Nat :=
  digits.foldl (fun value digit => 10 * value + (digit.toNat - '0'.toNat)) 0

/-- The natural number that a non-empty list of digits writes. -/
def magnitude? (digits : List Char) : Option Nat :=
  if digits ≠ [] ∧ digits.all Char.isDigit then some (digitsValue digits) else none

/-- Reads a decimal numeral: digits, of which there is at least one, after at most one sign. -/
def ofNumeral? : List Char → Option Integer
  | '-' :: digits => (magnitude? digits).bind fun n => ofInt? (-(n : Int))
  | '+' :: digits => (magnitude? digits).bind fun n => ofInt? n
  | digits => (magnitude? digits).bind fun n => ofInt? n

end Integer

end Script
