import CExamples.Sequence.SwapRemove

/-!
# Passes that remove while they advance

A pass goes over the indices of a list and removes elements on the way, by
moving the last one into the vacated place.  What it visits depends on whether
the index still advances after a removal.  If it does not, every element is
visited exactly once.  If it does, the moved element is skipped, and the pass
visits a front of the list that ends one place earlier for every removal.
-/

namespace CExamples.Sequence

universe u

variable {α : Type u} (drops : α → Bool)

/-- An index inside a list splits it. -/
theorem exists_split_at {xs : List α} {index : Nat} (inside : index < xs.length) :
    ∃ before x after, xs = before ++ x :: after ∧ before.length = index := by
  refine ⟨xs.take index, xs[index], xs.drop (index + 1), ?_, ?_⟩
  · rw [List.getElem_cons_drop, List.take_append_drop]
  · rw [List.length_take]
    omega

/-- The elements visited by a pass whose index stays after a removal. -/
def steadyPass : List α → List α
  | [] => []
  | x :: after => x :: steadyPass (if drops x then closeGap after else after)
  termination_by xs => xs.length
  decreasing_by split <;> simp

/-- The elements visited by a pass whose index advances after a removal. -/
def skippingPass : List α → List α
  | [] => []
  | x :: after => x :: skippingPass (if drops x then after.dropLast else after)
  termination_by xs => xs.length
  decreasing_by split <;> simp only [List.length_dropLast, List.length_cons] <;> omega

@[simp]
theorem steadyPass_nil : steadyPass drops [] = [] := by
  rw [steadyPass]

@[simp]
theorem skippingPass_nil : skippingPass drops [] = [] := by
  rw [skippingPass]

/-- A steady pass visits every element once. -/
theorem steadyPass_perm (xs : List α) : (steadyPass drops xs).Perm xs := by
  induction xs using steadyPass.induct drops with
  | case1 => simp
  | case2 x after ih =>
      rw [steadyPass]
      refine (ih.trans ?_).cons x
      split
      · exact closeGap_perm after
      · exact List.Perm.refl after

/-- A skipping pass visits a front of the list. -/
theorem skippingPass_isPrefix (xs : List α) : skippingPass drops xs <+: xs := by
  induction xs using skippingPass.induct drops with
  | case1 => simp
  | case2 x after ih =>
      rw [skippingPass]
      refine List.cons_prefix_cons.mpr ⟨rfl, ih.trans ?_⟩
      split
      · exact List.dropLast_prefix after
      · exact List.prefix_refl after

/-- A skipping pass gets to an index when the removals before it leave the list
long enough. -/
theorem lt_length_skippingPass (xs : List α) (index : Nat) :
    index < (skippingPass drops xs).length ↔
      index + (xs.take index).countP drops < xs.length := by
  induction xs using skippingPass.induct drops generalizing index with
  | case1 => simp
  | case2 x after ih =>
      rw [skippingPass]
      rw [dite_eq_ite] at ih
      cases index with
      | zero => simp
      | succ index =>
          rw [List.length_cons, Nat.succ_lt_succ_iff, ih index, List.take_succ_cons,
            List.countP_cons, List.length_cons]
          split
          · by_cases inside : index < after.length
            · rw [List.dropLast_eq_take, List.take_take, List.length_take,
                Nat.min_eq_left (by omega)]
              omega
            · rw [List.length_dropLast]
              omega
          · omega

/-- A skipping pass visits all elements that satisfy `wanted` exactly when it
gets to each of their indices. -/
theorem filter_skippingPass_eq_iff (wanted : α → Bool) (xs : List α) :
    (skippingPass drops xs).filter wanted = xs.filter wanted ↔
      ∀ before x after, xs = before ++ x :: after → wanted x = true →
        before.length + before.countP drops < xs.length := by
  obtain ⟨skipped, split⟩ := skippingPass_isPrefix drops xs
  have reach := lt_length_skippingPass drops xs
  generalize skippingPass drops xs = visited at split reach
  subst split
  have skips : visited.filter wanted = (visited ++ skipped).filter wanted ↔
      ∀ x ∈ skipped, ¬wanted x = true := by
    rw [List.filter_append, List.self_eq_append_right, List.filter_eq_nil_iff]
  rw [skips]
  constructor
  · intro unwanted before x after splitEq want
    have visits : before.length < visited.length := by
      by_contra late
      have tail := congrArg (List.drop visited.length) splitEq
      rw [List.drop_left, List.drop_append_of_le_length (by omega)] at tail
      exact unwanted x (tail ▸ by simp) want
    have counted := (reach before.length).mp visits
    rwa [splitEq, List.take_left, ← splitEq] at counted
  · intro gets x member want
    obtain ⟨before, after, rfl⟩ := List.append_of_mem member
    have counted := gets (visited ++ before) x after (by simp) want
    have visits := (reach (visited ++ before).length).mpr (by
      rw [← List.append_assoc, List.take_left]
      simpa using counted)
    rw [List.length_append] at visits
    omega

end CExamples.Sequence
