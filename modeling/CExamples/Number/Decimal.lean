import CExamples.Number.Numeral
import Mathlib.Algebra.Ring.Int.Defs
import Mathlib.Algebra.Ring.Nat

/-!
# Printing decimal numerals

What `%u` and `%d` print: the digits of a number without leading zeros, behind a
minus sign if it is negative.  The text is a numeral for the number.
-/

namespace CExamples.Number

/-- The digits that `%u` prints. -/
def decimal (number : Nat) : List UInt8 :=
  (Nat.toDigits 10 number).map fun digit => UInt8.ofNat digit.toNat

/-- The text that `%d` prints. -/
def decimalInt : Int → List UInt8
  | .ofNat number => decimal number
  | .negSucc number => 45 :: decimal (number + 1)

/-! ## Natural numbers -/

/-- The byte of one digit. -/
theorem toNat_digit {digit : Nat} (small : digit < 10) :
    UInt8.ofNat digit.digitChar.toNat = UInt8.ofNat (48 + digit) := by
  have digits : ∀ digit : Fin 10,
      UInt8.ofNat digit.val.digitChar.toNat = UInt8.ofNat (48 + digit.val) := by decide
  exact digits ⟨digit, small⟩

/-- The last digit follows the digits of a tenth. -/
theorem decimal_eq (number : Nat) :
    decimal number = (if number < 10 then [] else decimal (number / 10)) ++
      [UInt8.ofNat (48 + number % 10)] := by
  rw [decimal, Nat.toDigits_eq_if (by decide)]
  split
  · rename_i small
    rw [Nat.mod_eq_of_lt small, List.map_singleton, toNat_digit small, List.nil_append]
  · rw [List.map_append, List.map_singleton, toNat_digit (Nat.mod_lt number (by decide))]
    rfl

theorem decimal_ne_nil (number : Nat) : decimal number ≠ [] := by
  rw [decimal_eq]
  exact List.append_ne_nil_of_right_ne_nil _ (List.cons_ne_nil _ _)

/-- The value of one more digit. -/
theorem toNat_lastDigit (number : Nat) :
    (UInt8.ofNat (48 + number % 10)).toNat = 48 + number % 10 := by
  rw [UInt8.toNat_ofNat']
  omega

theorem isDigit_of_mem_decimal {number : Nat} {byte : UInt8} (member : byte ∈ decimal number) :
    isDigit byte = true := by
  induction number using Nat.strongRecOn with
  | ind number ih =>
      rw [decimal_eq] at member
      rcases List.mem_append.mp member with front | last
      · split at front
        · cases front
        · exact ih (number / 10) (by omega) front
      · rw [List.mem_singleton.mp last, isDigit_iff, toNat_lastDigit]
        omega

theorem magnitude_concat (digits : List UInt8) (digit : UInt8) :
    magnitude (digits ++ [digit]) = 10 * magnitude digits + (digit.toNat - 48) := by
  rw [magnitude, List.foldl_append]
  rfl

/-- The digits denote the number. -/
@[simp]
theorem magnitude_decimal (number : Nat) : magnitude (decimal number) = number := by
  induction number using Nat.strongRecOn with
  | ind number ih =>
      rw [decimal_eq, magnitude_concat, toNat_lastDigit]
      split
      · rename_i small
        have none : magnitude [] = 0 := rfl
        omega
      · have tenth := ih (number / 10) (by omega)
        omega

/-- A number below `10 ^ count` has at most `count` digits. -/
theorem length_decimal_le {number count : Nat} (positive : 0 < count) (small : number < 10 ^ count) :
    (decimal number).length ≤ count := by
  rw [decimal, List.length_map]
  exact (Nat.length_toDigits_le_iff (by decide) positive).mpr small

/-! ## Integers -/

/-- What is printed is a numeral for the integer. -/
theorem denotes_decimalInt (number : Int) : Denotes (decimalInt number) number := by
  cases number with
  | ofNat number =>
      refine ⟨⟨[], .none, decimal number, List.forall_mem_nil _, fun _ => isDigit_of_mem_decimal,
        decimal_ne_nil number⟩, rfl, ?_⟩
      exact congrArg Int.ofNat (magnitude_decimal number)
  | negSucc number =>
      refine ⟨⟨[], .minus, decimal (number + 1), List.forall_mem_nil _,
        fun _ => isDigit_of_mem_decimal, decimal_ne_nil _⟩, rfl, ?_⟩
      change -((magnitude (decimal (number + 1)) : Nat) : Int) = _
      rw [magnitude_decimal]
      rfl

/-- A printed number has no zero byte. -/
theorem zero_not_mem_decimalInt (number : Int) : 0 ∉ decimalInt number := by
  have digits (number : Nat) : 0 ∉ decimal number := fun member =>
    absurd (isDigit_of_mem_decimal member) (by decide)
  cases number with
  | ofNat number => exact digits number
  | negSucc number => exact List.not_mem_cons_of_ne_of_not_mem (by decide) (digits _)

/-- A 64-bit integer takes at most twenty bytes. -/
theorem length_decimalInt_le {number : Int} (low : -10 ^ 19 < number) (high : number < 10 ^ 20) :
    (decimalInt number).length ≤ 20 := by
  cases number with
  | ofNat number =>
      change (number : Int) < 10 ^ 20 at high
      apply length_decimal_le (by decide)
      omega
  | negSucc number =>
      have digits : (decimal (number + 1)).length ≤ 19 := by
        apply length_decimal_le (by decide)
        omega
      exact Nat.succ_le_succ digits

end CExamples.Number
