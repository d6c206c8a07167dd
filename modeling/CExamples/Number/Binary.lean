import CExamples.Number.Decimal
import Mathlib.Algebra.Ring.Nat

/-!
# Binary numerals

The value of a string of binary digits with the most significant digit first, and the
numeral that is made of consecutive bits of a number.
-/

namespace CExamples.Number

/-- The number that a string of binary digits denotes. -/
def binaryValue (digits : List UInt8) : Nat :=
  digits.foldl (fun value digit => 2 * value + (digit.toNat - 48)) 0

/-- The digits of the bits `low + count - 1` down to `low`. -/
def bits (number low : Nat) : Nat → List UInt8
  | 0 => []
  | count + 1 => UInt8.ofNat (48 + number / 2 ^ (low + count) % 2) :: bits number low count

theorem foldl_binary (digits : List UInt8) (value : Nat) :
    digits.foldl (fun value digit => 2 * value + (digit.toNat - 48)) value =
      2 ^ digits.length * value + binaryValue digits := by
  induction digits generalizing value with
  | nil => simp [binaryValue]
  | cons digit digits ih =>
      have first : binaryValue (digit :: digits) =
          2 ^ digits.length * (digit.toNat - 48) + binaryValue digits := by
        rw [binaryValue, List.foldl_cons, ih, Nat.mul_zero, Nat.zero_add]
      rw [List.foldl_cons, ih, first, List.length_cons, Nat.pow_succ, Nat.mul_add, Nat.mul_assoc,
        Nat.add_assoc]

/-- The first digit counts most. -/
theorem binaryValue_cons (digit : UInt8) (digits : List UInt8) :
    binaryValue (digit :: digits) =
      2 ^ digits.length * (digit.toNat - 48) + binaryValue digits := by
  rw [binaryValue, List.foldl_cons, foldl_binary, Nat.mul_zero, Nat.zero_add]

@[simp]
theorem length_bits (number low count : Nat) : (bits number low count).length = count := by
  induction count with
  | zero => rfl
  | succ count ih => rw [bits, List.length_cons, ih]

/-- Every digit is 0 or 1. -/
theorem digit_of_mem_bits {number low count : Nat} {digit : UInt8}
    (member : digit ∈ bits number low count) : digit = 48 ∨ digit = 49 := by
  induction count with
  | zero => cases member
  | succ count ih =>
      rw [bits] at member
      rcases List.mem_cons.mp member with rfl | later
      · rcases Nat.mod_two_eq_zero_or_one (number / 2 ^ (low + count)) with zero | one
        · rw [zero]
          exact Or.inl rfl
        · rw [one]
          exact Or.inr rfl
      · exact ih later

/-- Only what is above `low` matters. -/
theorem bits_congr {number other low : Nat} (same : number / 2 ^ low = other / 2 ^ low)
    (count : Nat) : bits number low count = bits other low count := by
  induction count with
  | zero => rfl
  | succ count ih =>
      rw [bits, bits, ih, Nat.pow_add, ← Nat.div_div_eq_div_mul, ← Nat.div_div_eq_div_mul, same]

/-- The bits from `low` on are those of the number shifted by `low`. -/
theorem binaryValue_bits (number low count : Nat) :
    binaryValue (bits number low count) = number / 2 ^ low % 2 ^ count := by
  induction count with
  | zero => rw [bits, Nat.pow_zero, Nat.mod_one]; rfl
  | succ count ih =>
      have bit : (UInt8.ofNat (48 + number / 2 ^ (low + count) % 2)).toNat - 48 =
          number / 2 ^ low / 2 ^ count % 2 := by
        rw [UInt8.toNat_ofNat', Nat.div_div_eq_div_mul, ← Nat.pow_add]
        omega
      rw [bits, binaryValue_cons, length_bits, bit, ih, Nat.mod_pow_succ, Nat.add_comm]

end CExamples.Number
