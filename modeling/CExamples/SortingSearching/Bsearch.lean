import CExamples.SortingSearching.Comparators

/-!
# Sort, search and index recovery

`sorting-searching/bsearch/main.c`.  `main` sorts an array of integers, has `bsearch`
look for a target, and turns the address it gets back into an index by comparing it
with the addresses of the elements.
-/

namespace CExamples.SortingSearching.Bsearch

open CExamples.Comparison

/-- `sizeof(int)` -/
def sizeofInt : Nat :=
  4

/-- The rest of the loop of `find_index`, from `i` on, with `count` rounds to go. -/
def findIndexFrom (arr element : Nat) : (count i : Nat) → Nat
  | 0, i => i
  | count + 1, i =>
      if address arr sizeofInt i = element then i else findIndexFrom arr element count (i + 1)

/-- `find_index`; `arr` and `element` are addresses. -/
def findIndex (arr size element : Nat) : Nat :=
  findIndexFrom arr element size 0

/-- What `main` prints: the array before and after the sort, and the index at which it
has found the target, unless it has not. -/
structure Output where
  unsorted : List Int32
  sorted : List Int32
  found : Option Nat
  deriving DecidableEq

/-- `main` for the array `arr` at the address `base`. -/
def main (qsort : Comparison.Qsort Int32) (bsearch : Comparison.Bsearch Int32) (base : Nat)
    (arr : List Int32) (target : Int32) : Output :=
  let size := arr.length * sizeofInt / sizeofInt
  let sorted := qsort.run intcmp arr
  let result := bsearch.run intcmp target base sizeofInt sorted
  { unsorted := arr
    sorted := sorted
    found := result.map (findIndex base size) }

/-! ## The index of an element -/

/-- From an index that is not beyond it, the loop stops at the element. -/
theorem findIndexFrom_address (arr index : Nat) {count i : Nat} (reached : i ≤ index)
    (inside : index < i + count) :
    findIndexFrom arr (address arr sizeofInt index) count i = index := by
  induction count generalizing i with
  | zero => omega
  | succ count ih =>
      have same : address arr sizeofInt i = address arr sizeofInt index ↔ i = index :=
        address_inj (by decide)
      rw [findIndexFrom]
      split
      · rename_i found
        exact same.mp found
      · rename_i passed
        have apart : i ≠ index := fun equal => passed (same.mpr equal)
        exact ih (by omega) (by omega)

/-- `find_index` inverts the address of an element. -/
theorem findIndex_address (arr : Nat) {size index : Nat} (inside : index < size) :
    findIndex arr size (address arr sizeofInt index) = index :=
  findIndexFrom_address arr index (Nat.zero_le index) (by omega)

/-! ## What `main` reports -/

section Main

variable (qsort : Comparison.Qsort Int32) (bsearch : Comparison.Bsearch Int32) (base : Nat)
  (arr : List Int32) (target : Int32)

theorem sorts_main : Sorts intcmp arr (main qsort bsearch base arr target).sorted :=
  qsort.sorts intcmp arr intcmp_consistent

theorem pairwise_main :
    (main qsort bsearch base arr target).sorted.Pairwise fun a b => intcmp a b ≤ 0 :=
  intcmp_consistent.pairwise (fun _ _ => trivial)
    (sorts_main qsort bsearch base arr target).adjacent

theorem length_main : (main qsort bsearch base arr target).sorted.length = arr.length :=
  (sorts_main qsort bsearch base arr target).permutation.length_eq

/-- An element that compares equal to the target is the target. -/
theorem intcmp_eq_zero_iff {a b : Int32} : intcmp a b = 0 ↔ a = b := by
  rw [intcmp_reports.eq_zero_iff trivial trivial, Int32.toInt_inj]

/-- The pointer that `bsearch` returns is turned into the index of a target. -/
theorem findIndex_of_run {pointer : Nat}
    (result : bsearch.run intcmp target base sizeofInt
      (main qsort bsearch base arr target).sorted = some pointer) :
    findIndex base arr.length pointer < arr.length ∧
      (main qsort bsearch base arr target).sorted[findIndex base arr.length pointer]? =
        some target := by
  obtain ⟨index, object, located, equal, rfl⟩ := bsearch.found intcmp target base sizeofInt _
    pointer intcmp_consistent (pairwise_main qsort bsearch base arr target) result
  have inside : index < arr.length := by
    rw [← length_main qsort bsearch base arr target]
    exact (List.getElem?_eq_some_iff.mp located).1
  rw [findIndex_address base inside, intcmp_eq_zero_iff.mp equal]
  exact ⟨inside, located⟩

theorem found_main :
    (main qsort bsearch base arr target).found =
      (bsearch.run intcmp target base sizeofInt
        (main qsort bsearch base arr target).sorted).map (findIndex base arr.length) := by
  have size : arr.length * sizeofInt / sizeofInt = arr.length := Nat.mul_div_cancel _ (by decide)
  rw [← size]
  rfl

/-- A target is reported exactly when there is one, and at an index where one is. -/
theorem main_finds :
    ((∃ index, (main qsort bsearch base arr target).found = some index) ↔ target ∈ arr) ∧
      (∀ index, (main qsort bsearch base arr target).found = some index →
        index < arr.length ∧
          (main qsort bsearch base arr target).sorted[index]? = some target) ∧
      ∀ pointer, bsearch.run intcmp target base sizeofInt
          (main qsort bsearch base arr target).sorted = some pointer →
        findIndex base arr.length pointer ≠ arr.length := by
  have reported (index : Nat) (found : (main qsort bsearch base arr target).found = some index) :
      index < arr.length ∧
        (main qsort bsearch base arr target).sorted[index]? = some target := by
    rw [found_main] at found
    obtain ⟨pointer, result, rfl⟩ := Option.map_eq_some_iff.mp found
    exact findIndex_of_run qsort bsearch base arr target result
  have permutation := (sorts_main qsort bsearch base arr target).permutation
  refine ⟨⟨?_, ?_⟩, reported, ?_⟩
  · rintro ⟨index, found⟩
    exact permutation.mem_iff.mp (List.mem_of_getElem? (reported index found).2)
  · intro member
    rw [found_main]
    cases result : bsearch.run intcmp target base sizeofInt
        (main qsort bsearch base arr target).sorted with
    | none =>
        have differs := bsearch.missed intcmp target base sizeofInt _ intcmp_consistent
          (pairwise_main qsort bsearch base arr target) result target
          (permutation.mem_iff.mpr member)
        exact absurd (intcmp_eq_zero_iff.mpr rfl) differs
    | some pointer => exact ⟨_, rfl⟩
  · intro pointer result
    exact Nat.ne_of_lt (findIndex_of_run qsort bsearch base arr target result).1

/-- The program's own array and target. -/
theorem ownArray_finds :
    ∃ index, (main Comparison.Qsort.merging Comparison.Bsearch.scanning 4096
      [5, 2, 8, 1, 3] 3).found = some index :=
  (main_finds Comparison.Qsort.merging Comparison.Bsearch.scanning 4096 [5, 2, 8, 1, 3] 3).1.mpr
    (by decide)

end Main

end CExamples.SortingSearching.Bsearch
