import CExamples.Number.Binary
import Mathlib.Data.UInt

/-!
# Printing a number in binary

`character-types/is/main.c`.  `print_binary` counts its index down from `width` and
stops at 0, and shifts by the index.  So it prints the bits from `width` down to 1: as
many digits as it should, but of half the number.
-/

namespace CExamples.CharacterTypes.Is

open CExamples.Number

/-- The loop of `print_binary` while the index is not 0. -/
def printBinaryFrom (ch : UInt32) : Nat → List UInt8
  | 0 => []
  | i + 1 => decimal ((ch >>> UInt32.ofNat (i + 1)) &&& 1).toNat ++ printBinaryFrom ch i

/-- What `print_binary` prints. -/
def printBinary (ch width : UInt32) : List UInt8 :=
  printBinaryFrom ch width.toNat

/-- What is printed are `width` binary digits that denote `ch`. -/
structure Prints (ch width : UInt32) : Prop where
  digits : ∀ digit ∈ printBinary ch width, digit = 48 ∨ digit = 49
  length : (printBinary ch width).length = width.toNat
  denotes : binaryValue (printBinary ch width) = ch.toNat

/-- The loop prints the bits above the lowest one. -/
theorem printBinaryFrom_eq (ch : UInt32) {count : Nat} (small : count ≤ 31) :
    printBinaryFrom ch count = bits ch.toNat 1 count := by
  induction count with
  | zero => rfl
  | succ count ih =>
      have index : (UInt32.ofNat (count + 1)).toNat = count + 1 :=
        UInt32.toNat_ofNat_of_lt' (by rw [UInt32.size]; omega)
      have bit : ((ch >>> UInt32.ofNat (count + 1)) &&& 1).toNat =
          ch.toNat / 2 ^ (1 + count) % 2 := by
        rw [UInt32.toNat_and, UInt32.toNat_shiftRight, index, UInt32.toNat_one,
          Nat.and_one_is_mod, Nat.mod_eq_of_lt (Nat.lt_succ_of_le small),
          Nat.shiftRight_eq_div_pow, Nat.add_comm count 1]
      have single : decimal (ch.toNat / 2 ^ (1 + count) % 2) =
          [UInt8.ofNat (48 + ch.toNat / 2 ^ (1 + count) % 2)] := by
        have below : ch.toNat / 2 ^ (1 + count) % 2 < 10 := by omega
        rw [decimal_eq, if_pos below, List.nil_append, Nat.mod_eq_of_lt below]
      rw [printBinaryFrom, bit, single, ih (Nat.le_of_succ_le small), bits]
      rfl

theorem printBinary_eq (ch : UInt32) {width : UInt32} (narrow : width.toNat ≤ 31) :
    printBinary ch width = bits ch.toNat 1 width.toNat :=
  printBinaryFrom_eq ch narrow

/-- What is printed denotes half the number. -/
theorem binaryValue_printBinary {ch width : UInt32} (narrow : width.toNat ≤ 31)
    (small : ch.toNat < 2 ^ width.toNat) : binaryValue (printBinary ch width) = ch.toNat / 2 := by
  have half : ch.toNat / 2 < 2 ^ width.toNat := by omega
  rw [printBinary_eq _ narrow, binaryValue_bits, Nat.pow_one, Nat.mod_eq_of_lt half]

/-- Which numbers are printed, and which are printed alike. -/
theorem prints_iff {ch width : UInt32} (narrow : width.toNat ≤ 31)
    (small : ch.toNat < 2 ^ width.toNat) :
    (Prints ch width ↔ ch = 0) ∧
      ∀ other : UInt32, other.toNat < 2 ^ width.toNat →
        (printBinary ch width = printBinary other width ↔ ch.toNat / 2 = other.toNat / 2) := by
  have value := binaryValue_printBinary narrow small
  constructor
  · constructor
    · rintro ⟨-, -, denotes⟩
      rw [value] at denotes
      apply UInt32.toNat_inj.mp
      rw [UInt32.toNat_zero]
      omega
    · rintro rfl
      refine ⟨?_, ?_, value⟩
      · rw [printBinary_eq _ narrow]
        exact fun digit => digit_of_mem_bits
      · rw [printBinary_eq _ narrow, length_bits]
  · intro other otherSmall
    constructor
    · intro same
      rw [← value, same, binaryValue_printBinary narrow otherSmall]
    · intro same
      rw [printBinary_eq _ narrow, printBinary_eq _ narrow]
      exact bits_congr (by rwa [Nat.pow_one]) width.toNat

theorem zero_printed :
    (Prints 0 6 ↔ (0 : UInt32) = 0) ∧
      ∀ other : UInt32, other.toNat < 2 ^ UInt32.toNat 6 →
        (printBinary 0 6 = printBinary other 6 ↔ UInt32.toNat 0 / 2 = other.toNat / 2) :=
  prints_iff (by decide) (by decide)

/-- The number 1 is printed as 0 is. -/
theorem one_printedAsZero : ¬Prints 1 1 ∧ printBinary 1 1 = printBinary 0 1 := by
  refine ⟨?_, rfl⟩
  intro prints
  have value : binaryValue (printBinary 1 1) = 0 := rfl
  rw [prints.denotes] at value
  cases value

end CExamples.CharacterTypes.Is
