import Mathlib.Data.List.Perm.Basic

/-!
# Removal by moving the last element

A list that only has to keep its elements, not their order, loses an element in
constant time: the last element moves into the vacated place and the list gets
shorter by one.  The part before the removed element stays as it is, so the
removal is a function of the part after it.
-/

namespace CExamples.Sequence

universe u

variable {α : Type u}

/-- The part after the removed element, once its last element has moved into the
vacated place. -/
def closeGap : List α → List α
  | [] => []
  | first :: rest => (first :: rest).getLast (List.cons_ne_nil _ _) :: (first :: rest).dropLast

@[simp]
theorem closeGap_nil : closeGap ([] : List α) = [] :=
  rfl

@[simp]
theorem closeGap_concat (between : List α) (last : α) :
    closeGap (between ++ [last]) = last :: between := by
  cases between with
  | nil => rfl
  | cons first between =>
      simp only [closeGap, List.cons_append]
      congr 1
      · simp
      · rw [← List.cons_append, List.dropLast_concat]

@[simp]
theorem length_closeGap (after : List α) : (closeGap after).length = after.length := by
  rcases List.eq_nil_or_concat after with rfl | ⟨between, last, rfl⟩ <;> simp

/-- No element after the removed one is lost. -/
theorem closeGap_perm (after : List α) : (closeGap after).Perm after := by
  rcases List.eq_nil_or_concat after with rfl | ⟨between, last, rfl⟩
  · exact List.Perm.refl _
  · rw [List.concat_eq_append, closeGap_concat]
    exact (List.perm_append_singleton last between).symm

theorem tail_closeGap (after : List α) : (closeGap after).tail = after.dropLast := by
  rcases List.eq_nil_or_concat after with rfl | ⟨between, last, rfl⟩ <;> simp

end CExamples.Sequence
