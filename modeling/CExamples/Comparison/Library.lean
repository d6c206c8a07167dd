import CExamples.Comparison.Core
import Mathlib.Data.List.Basic

/-!
# Library functions that take a comparator

`qsort` and `bsearch` are known by what they promise for a comparator that is a
total preorder.  An array is the list of its elements together with its address;
`bsearch` returns the address of an element, or the null pointer.
-/

namespace CExamples.Comparison

universe u

variable {α : Type u}

/-- The comparator is a total preorder. -/
def Consistent (cmp : Comparator α) : Prop :=
  ConsistentOn cmp fun _ => True

/-- The address of an element of an array of objects of `size` bytes. -/
def address (base size index : Nat) : Nat :=
  base + size * index

theorem address_inj {base size first second : Nat} (positive : 0 < size) :
    address base size first = address base size second ↔ first = second := by
  rw [address, address, Nat.add_left_cancel_iff, Nat.mul_right_inj (Nat.ne_of_gt positive)]

/-- `qsort(base, nmemb, size, compar)`: the array that it leaves. -/
structure Qsort (α : Type u) where
  run : Comparator α → List α → List α
  sorts : ∀ cmp array, Consistent cmp → Sorts cmp array (run cmp array)

/-- `bsearch(key, base, nmemb, size, compar)`: where an element compares equal to the
key, if one does. -/
structure Bsearch (α : Type u) where
  run : Comparator α → α → (base size : Nat) → List α → Option Nat
  found : ∀ cmp key base size array pointer, Consistent cmp →
    (array.Pairwise fun a b => cmp a b ≤ 0) → run cmp key base size array = some pointer →
    ∃ index object, array[index]? = some object ∧ cmp key object = 0 ∧
      pointer = address base size index
  missed : ∀ cmp key base size array, Consistent cmp →
    (array.Pairwise fun a b => cmp a b ≤ 0) → run cmp key base size array = none →
    ∀ object ∈ array, cmp key object ≠ 0

/-! ## A library that keeps the promises -/

/-- Sorting by merging. -/
def Qsort.merging : Qsort α where
  run cmp array := array.mergeSort fun a b => cmp a b ≤ 0
  sorts cmp array consistent := by
    have ordered : (array.mergeSort fun a b => cmp a b ≤ 0).Pairwise fun a b =>
        decide (cmp a b ≤ 0) = true := by
      apply List.pairwise_mergeSort
      · simpa using fun a b c => consistent.transitive a b c trivial trivial trivial
      · simpa using fun a b => consistent.total (a := a) (b := b) trivial trivial
    constructor
    · exact List.mergeSort_perm array _
    · exact (ordered.imp of_decide_eq_true).isChain

/-- Searching from the first element on. -/
def Bsearch.scanning : Bsearch α where
  run cmp key base size array :=
    (array.findIdx? fun object => cmp key object = 0).map (address base size)
  found cmp key base size array pointer _ _ result := by
    obtain ⟨index, located, rfl⟩ := Option.map_eq_some_iff.mp result
    obtain ⟨inside, equal, _⟩ := List.findIdx?_eq_some_iff_getElem.mp located
    exact ⟨index, array[index], List.getElem?_eq_getElem inside, of_decide_eq_true equal, rfl⟩
  missed cmp key base size array _ _ result := by
    have absent := List.findIdx?_eq_none_iff.mp (Option.map_eq_none_iff.mp result)
    intro object member
    exact of_decide_eq_false (absent object member)

end CExamples.Comparison
