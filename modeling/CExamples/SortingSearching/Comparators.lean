import CExamples.Comparison.Library
import Mathlib.Algebra.Ring.Int.Defs
import Mathlib.Algebra.Ring.Nat

/-!
# The two integer comparators

`sorting-searching/qsort/main.c` and `sorting-searching/bsearch/main.c` each have
their own `intcmp`.  The one of `bsearch` compares the two integers.  The one of
`qsort` subtracts them, and the difference wraps: it has the right sign exactly when
it fits into an `int`.  So that comparator orders those arrays whose largest and
smallest elements are less than `2 ^ 31` apart, and no others.
-/

namespace CExamples.SortingSearching

open CExamples.Comparison

/-- `intcmp` of the `qsort` program. -/
def Qsort.intcmp : Comparator Int32 :=
  fun a b => a - b

/-- `intcmp` of the `bsearch` program. -/
def Bsearch.intcmp : Comparator Int32 :=
  fun a b =>
    let lhs := a
    let rhs := b
    if lhs < rhs then -1
    else if lhs > rhs then 1
    else 0

/-- The array is in ascending numeric order. -/
def Ascending (array : List Int32) : Prop :=
  array.Pairwise fun a b => a.toInt ≤ b.toInt

/-- What the two comparators have in common on the elements of an array, and what a
sort with either of them does to it. -/
structure Interchangeable (array : List Int32) : Prop where
  signs : ∀ a ∈ array, ∀ b ∈ array, sign (Qsort.intcmp a b) = sign (Bsearch.intcmp a b)
  subtracting : ConsistentOn Qsort.intcmp (· ∈ array)
  comparing : ConsistentOn Bsearch.intcmp (· ∈ array)
  sortsSubtracting : ∀ output, Sorts Qsort.intcmp array output → Ascending output
  sortsComparing : ∀ output, Sorts Bsearch.intcmp array output → Ascending output

/-- No two elements of the array are `2 ^ 31` or more apart. -/
def Narrow (array : List Int32) : Prop :=
  ∀ a ∈ array, ∀ b ∈ array, a.toInt - b.toInt < 2 ^ 31

/-! ## Comparing -/

/-- The comparison reports the numeric order of all integers. -/
theorem Bsearch.intcmp_reports : Reports Bsearch.intcmp Int32.toInt fun _ => True := by
  intro a b _ _
  unfold Bsearch.intcmp sign
  simp only [gt_iff_lt, Int32.lt_iff_toInt_lt]
  split
  · rename_i less
    rw [Int.sign_eq_neg_one_of_neg (Int.sub_neg_of_lt less)]
    decide
  · split
    · rename_i more
      rw [Int.sign_eq_one_of_pos (Int.sub_pos_of_lt more)]
      decide
    · rw [show a.toInt - b.toInt = 0 by omega]
      decide

theorem Bsearch.intcmp_consistent : Consistent Bsearch.intcmp :=
  Bsearch.intcmp_reports.consistent

/-! ## Subtracting -/

/-- A wrapped difference keeps its sign exactly when it does not wrap. -/
theorem sign_bmod_eq_iff {difference : Int} (low : -2 ^ 32 < difference)
    (high : difference < 2 ^ 32) :
    (difference.bmod (2 ^ 32)).sign = difference.sign ↔
      -2 ^ 31 ≤ difference ∧ difference < 2 ^ 31 := by
  constructor
  · intro same
    by_contra wraps
    by_cases negative : difference < 0
    · have wrapped : 0 < difference.bmod (2 ^ 32) := by
        rw [Int.bmod_def]
        omega
      rw [Int.sign_eq_neg_one_of_neg negative, Int.sign_eq_one_of_pos wrapped] at same
      cases same
    · have wrapped : difference.bmod (2 ^ 32) < 0 := by
        rw [Int.bmod_def]
        omega
      have positive : 0 < difference := by omega
      rw [Int.sign_eq_one_of_pos positive, Int.sign_eq_neg_one_of_neg wrapped] at same
      cases same
  · rintro ⟨fitsLow, fitsHigh⟩
    rw [Int.bmod_eq_of_le (by omega) (by omega)]

/-- The difference of two integers has the sign of their comparison exactly when it fits
into an `int`. -/
theorem sign_intcmp_eq_iff (a b : Int32) :
    sign (Qsort.intcmp a b) = sign (Bsearch.intcmp a b) ↔
      -2 ^ 31 ≤ a.toInt - b.toInt ∧ a.toInt - b.toInt < 2 ^ 31 := by
  rw [Bsearch.intcmp_reports a b trivial trivial, sign, Qsort.intcmp, Int32.toInt_sub]
  have lowA := a.le_toInt
  have highA := a.toInt_lt
  have lowB := b.le_toInt
  have highB := b.toInt_lt
  exact sign_bmod_eq_iff (by omega) (by omega)

/-- On a narrow array the difference reports the numeric order. -/
theorem Narrow.reports {array : List Int32} (narrow : Narrow array) :
    Reports Qsort.intcmp Int32.toInt (· ∈ array) := by
  intro a b left right
  have above := narrow a left b right
  have below := narrow b right a left
  rw [← Bsearch.intcmp_reports a b trivial trivial, sign_intcmp_eq_iff]
  omega

theorem Narrow.of_signs {array : List Int32}
    (signs : ∀ a ∈ array, ∀ b ∈ array, sign (Qsort.intcmp a b) = sign (Bsearch.intcmp a b)) :
    Narrow array :=
  fun a left b right => ((sign_intcmp_eq_iff a b).mp (signs a left b right)).2

/-! ## Sorting -/

/-- The elements on one side of zero are close together. -/
theorem narrow_of_sameSign {array : List Int32}
    (same : (∀ a ∈ array, 0 ≤ a.toInt) ∨ ∀ a ∈ array, a.toInt < 0) : Narrow array := by
  intro a left b right
  have lowB := b.le_toInt
  have highA := a.toInt_lt
  rcases same with positive | negative
  · have := positive b right
    omega
  · have := negative a left
    omega

/-- A list in ascending order is in order for the subtraction when it is narrow. -/
theorem Ascending.adjacent {array : List Int32} (ascending : Ascending array)
    (narrow : Narrow array) : array.IsChain fun a b => Qsort.intcmp a b ≤ 0 := by
  apply List.Pairwise.isChain
  apply List.Pairwise.imp_of_mem _ ascending
  intro a b left right
  exact (narrow.reports.nonpos_iff left right).mpr

/-- The elements in ascending order. -/
theorem exists_ascending (array : List Int32) :
    ∃ output : List Int32, output.Perm array ∧ Ascending output := by
  have sorts := Qsort.merging.sorts Bsearch.intcmp array Bsearch.intcmp_consistent
  exact ⟨_, sorts.permutation, Bsearch.intcmp_reports.ascending (fun _ _ => trivial) sorts⟩

theorem Ascending.le_last {array : List Int32} (ascending : Ascending array) {a last : Int32}
    (member : a ∈ array) (isLast : array.getLast? = some last) : a.toInt ≤ last.toInt := by
  obtain ⟨before, rfl⟩ := List.getLast?_eq_some_iff.mp isLast
  rcases List.mem_append.mp member with earlier | same
  · exact (List.pairwise_append.mp ascending).2.2 a earlier last List.mem_cons_self
  · exact Int.le_of_eq (congrArg Int32.toInt (List.mem_singleton.mp same))

theorem Ascending.head_le {array : List Int32} (ascending : Ascending array) {a head : Int32}
    (member : a ∈ array) (isHead : array.head? = some head) : head.toInt ≤ a.toInt := by
  obtain ⟨after, rfl⟩ := List.head?_eq_some_iff.mp isHead
  rcases List.mem_cons.mp member with same | later
  · exact Int.le_of_eq (congrArg Int32.toInt same.symm)
  · exact (List.pairwise_cons.mp ascending).1 a later

/-- Where the subtraction wraps, the negative elements may follow the others. -/
theorem adjacent_append {first second : List Int32} {a b : Int32} (ascending : Ascending first)
    (ascending' : Ascending second) (positive : ∀ x ∈ first, 0 ≤ x.toInt)
    (negative : ∀ x ∈ second, x.toInt < 0) (left : a ∈ first) (right : b ∈ second)
    (distant : 2 ^ 31 ≤ a.toInt - b.toInt) :
    (first ++ second).IsChain fun a b => Qsort.intcmp a b ≤ 0 := by
  apply List.IsChain.append
  · exact ascending.adjacent (narrow_of_sameSign (Or.inl positive))
  · exact ascending'.adjacent (narrow_of_sameSign (Or.inr negative))
  · intro last isLast head isHead
    have above := ascending.le_last left isLast
    have below := ascending'.head_le right isHead
    have high := last.toInt_lt
    have low := head.le_toInt
    rw [Qsort.intcmp, Int32.le_iff_toInt_le, Int32.toInt_sub, Int32.toInt_zero, Int.bmod_def]
    omega

/-- An array that every sort with the subtraction puts in order is narrow. -/
theorem Narrow.of_sorts {array : List Int32}
    (sorts : ∀ output, Sorts Qsort.intcmp array output → Ascending output) : Narrow array := by
  intro a left b right
  by_contra distant
  have highA := a.toInt_lt
  have lowA := a.le_toInt
  have highB := b.toInt_lt
  have lowB := b.le_toInt
  let positive (x : Int32) : Bool := 0 ≤ x.toInt
  obtain ⟨first, permutation, ascending⟩ := exists_ascending (array.filter positive)
  obtain ⟨second, permutation', ascending'⟩ := exists_ascending (array.filter (!positive ·))
  have inFirst (x : Int32) : x ∈ first ↔ x ∈ array ∧ 0 ≤ x.toInt := by
    rw [permutation.mem_iff, List.mem_filter, decide_eq_true_eq]
  have inSecond (x : Int32) : x ∈ second ↔ x ∈ array ∧ x.toInt < 0 := by
    rw [permutation'.mem_iff, List.mem_filter, Bool.not_eq_true', decide_eq_false_iff_not,
      Int.not_le]
  have leftFirst := (inFirst a).mpr ⟨left, by omega⟩
  have rightSecond := (inSecond b).mpr ⟨right, by omega⟩
  have sorted : Sorts Qsort.intcmp array (first ++ second) := by
    constructor
    · exact (permutation.append permutation').trans (List.filter_append_perm positive array)
    · exact adjacent_append ascending ascending' (fun x member => ((inFirst x).mp member).2)
        (fun x member => ((inSecond x).mp member).2) leftFirst rightSecond (by omega)
  have inOrder := (List.pairwise_append.mp (sorts _ sorted)).2.2 a leftFirst b rightSecond
  omega

/-- On which arrays the two comparators can stand for each other.  Elsewhere a sort with
the subtraction may already leave the array in the wrong order. -/
theorem interchangeable_iff (array : List Int32) :
    (Interchangeable array ↔ Narrow array) ∧
      ((∀ output, Sorts Qsort.intcmp array output → Ascending output) ↔ Narrow array) := by
  have sorts (narrow : Narrow array) (output : List Int32)
      (sorted : Sorts Qsort.intcmp array output) : Ascending output :=
    narrow.reports.ascending (fun _ member => member) sorted
  constructor
  · constructor
    · intro interchangeable
      exact Narrow.of_signs interchangeable.signs
    · intro narrow
      constructor
      · intro a left b right
        rw [narrow.reports a b left right, Bsearch.intcmp_reports a b trivial trivial]
      · exact narrow.reports.consistent
      · exact Bsearch.intcmp_consistent.mono fun _ _ => trivial
      · exact sorts narrow
      · intro output sorted
        exact Bsearch.intcmp_reports.ascending (fun _ _ => trivial) sorted
  · exact ⟨Narrow.of_sorts, sorts⟩

/-- The smallest `int` is taken for larger than 1, and a sort may leave it behind. -/
theorem distantPair_disordered :
    sign (Qsort.intcmp (-2147483648) 1) ≠ sign (Bsearch.intcmp (-2147483648) 1) ∧
      Sorts Qsort.intcmp [-2147483648, 1] [1, -2147483648] ∧
      ¬Ascending [1, -2147483648] ∧ ¬Interchangeable [-2147483648, 1] := by
  have wrong : ¬Ascending [1, -2147483648] := by
    unfold Ascending
    decide
  have sorts : Sorts Qsort.intcmp [-2147483648, 1] [1, -2147483648] := by
    constructor
    · decide
    · decide
  refine ⟨by decide, sorts, wrong, ?_⟩
  intro interchangeable
  exact wrong (interchangeable.sortsSubtracting _ sorts)

end CExamples.SortingSearching
