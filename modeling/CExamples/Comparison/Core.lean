import Mathlib.Data.List.Chain
import Mathlib.Data.List.Perm.Basic

/-!
# Comparators

A comparator tells by the sign of a 32-bit integer how two objects compare.  It can
be relied on for some objects when the sign turns round with the operands and when
it is transitive, and then a list in which no two neighbours are out of order has
no two elements out of order.  A comparator that reports the order of a key has
both properties.
-/

namespace CExamples.Comparison

universe u

variable {α : Type u}

/-- A function that compares two objects, as `qsort` and `bsearch` take it. -/
abbrev Comparator (α : Type u) := α → α → Int32

/-- The sign of a comparator's result. -/
def sign (result : Int32) : Int :=
  result.toInt.sign

/-- The comparator is a total preorder on `objects`. -/
structure ConsistentOn (cmp : Comparator α) (objects : α → Prop) : Prop where
  antisymmetric : ∀ a b, objects a → objects b → sign (cmp a b) = -sign (cmp b a)
  transitive : ∀ a b c, objects a → objects b → objects c → cmp a b ≤ 0 → cmp b c ≤ 0 →
    cmp a c ≤ 0

/-- What a comparison sort may return: the elements of `input`, no two neighbours of
which are out of order. -/
structure Sorts (cmp : Comparator α) (input output : List α) : Prop where
  permutation : output.Perm input
  adjacent : output.IsChain fun a b => cmp a b ≤ 0

/-- The comparator reports the order of the keys of `objects`. -/
def Reports (cmp : Comparator α) (key : α → Int) (objects : α → Prop) : Prop :=
  ∀ a b, objects a → objects b → sign (cmp a b) = (key a - key b).sign

theorem sign_nonpos {result : Int32} : sign result ≤ 0 ↔ result ≤ 0 := by
  rw [sign, Int.sign_nonpos_iff, Int32.le_iff_toInt_le, Int32.toInt_zero]

theorem sign_eq_zero {result : Int32} : sign result = 0 ↔ result = 0 := by
  rw [sign, Int.sign_eq_zero_iff_zero, ← Int32.toInt_zero, Int32.toInt_inj]

namespace ConsistentOn

variable {cmp : Comparator α} {objects others : α → Prop}

theorem mono (consistent : ConsistentOn cmp objects) (fewer : ∀ a, others a → objects a) :
    ConsistentOn cmp others where
  antisymmetric a b left right := consistent.antisymmetric a b (fewer a left) (fewer b right)
  transitive a b c first second third :=
    consistent.transitive a b c (fewer a first) (fewer b second) (fewer c third)

/-- Two objects are in order one way or the other. -/
theorem total (consistent : ConsistentOn cmp objects) {a b : α} (left : objects a)
    (right : objects b) : cmp a b ≤ 0 ∨ cmp b a ≤ 0 := by
  have turned := consistent.antisymmetric a b left right
  rw [← sign_nonpos, ← sign_nonpos]
  omega

/-- Neighbours in order have everything in order. -/
theorem pairwise (consistent : ConsistentOn cmp objects) {list : List α}
    (inside : ∀ a ∈ list, objects a) (adjacent : list.IsChain fun a b => cmp a b ≤ 0) :
    list.Pairwise fun a b => cmp a b ≤ 0 := by
  let ordered (a b : α) : Prop := a ∈ list ∧ b ∈ list ∧ cmp a b ≤ 0
  have transitive : Trans ordered ordered ordered := by
    constructor
    rintro a b c ⟨first, second, less⟩ ⟨-, third, less'⟩
    exact ⟨first, third, consistent.transitive a b c (inside a first) (inside b second)
      (inside c third) less less'⟩
  have chain : list.IsChain ordered := List.IsChain.iff_mem.mp adjacent
  exact chain.pairwise.imp fun inOrder => inOrder.2.2

end ConsistentOn

namespace Reports

variable {cmp : Comparator α} {key : α → Int} {objects : α → Prop}

theorem nonpos_iff (reports : Reports cmp key objects) {a b : α} (left : objects a)
    (right : objects b) : cmp a b ≤ 0 ↔ key a ≤ key b := by
  rw [← sign_nonpos, reports a b left right, Int.sign_nonpos_iff]
  omega

theorem eq_zero_iff (reports : Reports cmp key objects) {a b : α} (left : objects a)
    (right : objects b) : cmp a b = 0 ↔ key a = key b := by
  rw [← sign_eq_zero, reports a b left right, Int.sign_eq_zero_iff_zero]
  exact Int.sub_eq_zero

theorem consistent (reports : Reports cmp key objects) : ConsistentOn cmp objects where
  antisymmetric a b left right := by
    rw [reports a b left right, reports b a right left, ← Int.sign_neg, Int.neg_sub]
  transitive a b c first second third := by
    rw [reports.nonpos_iff first second, reports.nonpos_iff second third,
      reports.nonpos_iff first third]
    exact Int.le_trans

/-- A sorted list has its keys in ascending order. -/
theorem ascending (reports : Reports cmp key objects) {input output : List α}
    (inside : ∀ a ∈ input, objects a) (sorts : Sorts cmp input output) :
    output.Pairwise fun a b => key a ≤ key b := by
  have inside' : ∀ a ∈ output, objects a := fun a member =>
    inside a (sorts.permutation.mem_iff.mp member)
  have ordered := reports.consistent.pairwise inside' sorts.adjacent
  apply ordered.imp_of_mem
  intro a b left right
  exact (reports.nonpos_iff (inside' a left) (inside' b right)).mp

end Reports

end CExamples.Comparison
