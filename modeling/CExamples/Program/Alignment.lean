import CExamples.Program.SizeT
import Mathlib.Algebra.Ring.Nat

/-!
# Rounding sizes up to pages

For a power of two, masking with the complement of its predecessor clears the remainder.
So `(size + page - 1) & ~(page - 1)` is the least multiple of the page that is not below
the size.  An exact operation is one whose result is not wrapped.
-/

namespace CExamples.Program

/-- `left + right`, unless it wraps. -/
def exactAdd (left right : UInt64) : Option UInt64 :=
  if left.toNat + right.toNat < 2 ^ 64 then some (left + right) else none

/-- `left - right`, unless it wraps. -/
def exactSub (left right : UInt64) : Option UInt64 :=
  if right.toNat ≤ left.toNat then some (left - right) else none

/-- `(size + page - 1) & ~(page - 1)` -/
def roundUp (size page : UInt64) : UInt64 :=
  (size + page - 1) &&& ~~~(page - 1)

/-- The same, unless one of its operations wraps. -/
def exactRoundUp (size page : UInt64) : Option UInt64 := do
  let sum ← exactAdd size page
  let last ← exactSub sum 1
  let mask ← exactSub page 1
  pure (last &&& ~~~mask)

theorem exactAdd_eq_some {left right : UInt64} (fits : left.toNat + right.toNat < 2 ^ 64) :
    exactAdd left right = some (left + right) :=
  if_pos fits

theorem exactSub_eq_some {left right : UInt64} (fits : right.toNat ≤ left.toNat) :
    exactSub left right = some (left - right) :=
  if_pos fits

theorem toNat_add_of_lt {left right : UInt64} (fits : left.toNat + right.toNat < 2 ^ 64) :
    (left + right).toNat = left.toNat + right.toNat := by
  rw [UInt64.toNat_add, Nat.mod_eq_of_lt fits]

theorem toNat_sub_of_le {left right : UInt64} (fits : right.toNat ≤ left.toNat) :
    (left - right).toNat = left.toNat - right.toNat :=
  UInt64.toNat_sub_of_le _ _ (UInt64.le_iff_toNat_le.mpr fits)

/-- The complement of the predecessor of a power of two keeps the higher bits. -/
theorem and_complement (number : Nat) {shift : Nat} (small : number < 2 ^ 64) (inside : shift ≤ 64) :
    number &&& (2 ^ 64 - 1 - (2 ^ shift - 1)) = number / 2 ^ shift * 2 ^ shift := by
  apply Nat.eq_of_testBit_eq
  intro index
  have power : 2 ^ shift - 1 < 2 ^ 64 := by
    have monotone : 2 ^ shift ≤ 2 ^ 64 := Nat.pow_le_pow_right (by decide) inside
    omega
  rw [Nat.sub_sub, Nat.add_comm 1, Nat.testBit_and, Nat.testBit_two_pow_sub_succ power,
    Nat.testBit_two_pow_sub_one, Nat.testBit_mul_two_pow, Nat.testBit_div_two_pow]
  by_cases low : index < shift
  · simp [low, Nat.not_le.mpr low]
  · have high := Nat.le_of_not_lt low
    rw [Nat.sub_add_cancel high]
    by_cases beyond : index < 64
    · simp [low, high, beyond]
    · have zero : number.testBit index = false :=
        Nat.testBit_lt_two_pow (Nat.lt_of_lt_of_le small (Nat.pow_le_pow_right (by decide)
          (Nat.le_of_not_lt beyond)))
      simp [zero]

section Page

variable {size page : UInt64} {shift : Nat}

theorem page_pos (power : page.toNat = 2 ^ shift) : 0 < page.toNat := by
  rw [power]
  exact Nat.two_pow_pos shift

/-- Rounding does not wrap below the largest size. -/
theorem exactRoundUp_eq_some (positive : 0 < page.toNat)
    (fits : size.toNat + page.toNat < 2 ^ 64) :
    exactRoundUp size page = some (roundUp size page) := by
  have sum := toNat_add_of_lt fits
  have one : UInt64.toNat 1 = 1 := rfl
  have last : exactSub (size + page) 1 = some (size + page - 1) :=
    exactSub_eq_some (by omega)
  have mask : exactSub page 1 = some (page - 1) := exactSub_eq_some (by omega)
  simp only [exactRoundUp, exactAdd_eq_some fits, last, mask, Option.bind_eq_bind,
    Option.bind_some]
  rfl

/-- Rounding is division and multiplication. -/
theorem toNat_roundUp (power : page.toNat = 2 ^ shift)
    (fits : size.toNat + page.toNat < 2 ^ 64) :
    (roundUp size page).toNat = (size.toNat + page.toNat - 1) / page.toNat * page.toNat := by
  have sum := toNat_add_of_lt fits
  have positive := page_pos power
  have one : UInt64.toNat 1 = 1 := rfl
  have last : (size + page - 1).toNat = size.toNat + page.toNat - 1 := by
    rw [toNat_sub_of_le (by omega), sum, one]
  have mask : (page - 1).toNat = 2 ^ shift - 1 := by
    rw [toNat_sub_of_le (by omega), power, one]
  have inside : shift ≤ 64 := by
    apply Nat.le_of_not_lt
    intro beyond
    have monotone : 2 ^ 64 ≤ 2 ^ shift := Nat.pow_le_pow_right (by decide) (Nat.le_of_lt beyond)
    omega
  rw [roundUp, UInt64.toNat_and, UInt64.toNat_not, last, mask, power]
  exact and_complement _ (by omega) inside

theorem dvd_roundUp (power : page.toNat = 2 ^ shift)
    (fits : size.toNat + page.toNat < 2 ^ 64) : page.toNat ∣ (roundUp size page).toNat := by
  rw [toNat_roundUp power fits]
  exact Nat.dvd_mul_left _ _

theorem le_roundUp (power : page.toNat = 2 ^ shift)
    (fits : size.toNat + page.toNat < 2 ^ 64) : size.toNat ≤ (roundUp size page).toNat := by
  have positive := page_pos power
  have below := Nat.lt_div_mul_add positive (a := size.toNat + page.toNat - 1)
  rw [toNat_roundUp power fits]
  omega

/-- The result is the least multiple that is not below the size. -/
theorem roundUp_le (power : page.toNat = 2 ^ shift) (fits : size.toNat + page.toNat < 2 ^ 64)
    {multiple : Nat} (divides : page.toNat ∣ multiple) (large : size.toNat ≤ multiple) :
    (roundUp size page).toNat ≤ multiple := by
  have positive := page_pos power
  rcases divides with ⟨count, rfl⟩
  have quotient : (size.toNat + page.toNat - 1) / page.toNat < count + 1 := by
    rw [Nat.div_lt_iff_lt_mul positive, Nat.mul_comm, Nat.mul_succ]
    omega
  rw [toNat_roundUp power fits, Nat.mul_comm]
  exact Nat.mul_le_mul_left _ (Nat.le_of_lt_succ quotient)

end Page

end CExamples.Program
