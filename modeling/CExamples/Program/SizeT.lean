import Mathlib.Data.UInt

/-!
# Sizes in 64 bits

`size_t` and `nfds_t` wrap at `2 ^ 64`.  `sizeT n` is the size that counts `n`
things; below the wrap it can be compared and used as an index like `n`, and
its successor and predecessor cancel even across the wrap.
-/

namespace CExamples.Program

/-- The 64-bit size `n`. -/
def sizeT (n : Nat) : UInt64 :=
  UInt64.ofNat n

theorem toNat_sizeT {n : Nat} (small : n < 2 ^ 64) : (sizeT n).toNat = n :=
  UInt64.toNat_ofNat_of_lt' small

theorem sizeT_add_one (n : Nat) : sizeT n + 1 = sizeT (n + 1) :=
  (UInt64.ofNat_add n 1).symm

theorem sizeT_succ_sub_one (n : Nat) : sizeT (n + 1) - 1 = sizeT n := by
  rw [← sizeT_add_one, UInt64.add_sub_cancel]

/-- A wrapping decrement is undone by the increment that follows it. -/
theorem sub_one_add_one (n : UInt64) : n - 1 + 1 = n :=
  UInt64.sub_add_cancel n 1

theorem sizeT_mul (m n : Nat) : sizeT m * sizeT n = sizeT (m * n) :=
  (UInt64.ofNat_mul m n).symm

theorem sizeT_lt_sizeT {m n : Nat} (smallM : m < 2 ^ 64) (smallN : n < 2 ^ 64) :
    sizeT m < sizeT n ↔ m < n :=
  UInt64.ofNat_lt_iff_lt smallM smallN

theorem sizeT_inj {m n : Nat} (smallM : m < 2 ^ 64) (smallN : n < 2 ^ 64) :
    sizeT m = sizeT n ↔ m = n := by
  constructor
  · intro equal
    rw [← toNat_sizeT smallM, equal, toNat_sizeT smallN]
  · rintro rfl
    rfl

/-- The whole slots of `size` bytes in a block of `count * size` bytes, where
the product wraps. -/
def slotsOf (count size : UInt64) : Nat :=
  (count * size / size).toNat

/-- A block whose size does not wrap has the slots asked for. -/
theorem slotsOf_sizeT {count size : Nat} (positive : 0 < size)
    (small : count * size < 2 ^ 64) : slotsOf (sizeT count) (sizeT size) = count := by
  have sizeSmall : size < 2 ^ 64 ∨ count = 0 := by
    rcases Nat.eq_zero_or_pos count with zero | one
    · exact Or.inr zero
    · exact Or.inl (Nat.lt_of_le_of_lt (Nat.le_mul_of_pos_left size one) small)
  rcases sizeSmall with sizeSmall | rfl
  · rw [slotsOf, sizeT_mul, UInt64.toNat_div, toNat_sizeT small, toNat_sizeT sizeSmall,
      Nat.mul_div_cancel _ positive]
  · rw [slotsOf, sizeT_mul, Nat.zero_mul, UInt64.toNat_div]
    simp [sizeT]

/-! ## Growth by doubling -/

/-- The slots that doubling adds to a full block; an empty one gets four. -/
def grown (count : Nat) : Nat :=
  if count = 0 then 4 else count

theorem newCap_eq (count : Nat) (small : count < 2 ^ 64) :
    (if sizeT count = 0 then 4 else sizeT count * 2) = sizeT (count + grown count) := by
  have zeroIff : sizeT count = 0 ↔ count = 0 := sizeT_inj small (by decide)
  unfold grown
  by_cases zero : count = 0
  · subst zero
    rfl
  · rw [if_neg (mt zeroIff.mp zero), if_neg zero, ← Nat.mul_two]
    exact sizeT_mul count 2

theorem grown_eq_succ (count : Nat) : ∃ more, grown count = more + 1 := by
  refine ⟨grown count - 1, ?_⟩
  unfold grown
  split <;> omega

theorem grown_le {count : Nat} (few : count ≤ 2 ^ 31) : count + grown count ≤ 2 ^ 32 := by
  unfold grown
  split <;> omega

end CExamples.Program
