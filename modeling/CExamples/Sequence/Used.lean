import Mathlib.Data.List.Basic

/-!
# Answers that are used up

A list of answers of which `rest` is left has a beginning that was used.
-/

namespace CExamples.Sequence

variable {α : Type} {fine : α → Prop} {answers rest : List α} {answer : α}

/-- All answers that were used before `rest` was left are fine. -/
def UsedUp (fine : α → Prop) (answers rest : List α) : Prop :=
  ∃ before, answers = before ++ rest ∧ ∀ answer ∈ before, fine answer

/-- Some answer that was used before `rest` was left is not fine. -/
def Spoilt (fine : α → Prop) (answers rest : List α) : Prop :=
  ∃ before, answers = before ++ rest ∧ ∃ answer ∈ before, ¬fine answer

namespace UsedUp

theorem start (fine : α → Prop) (answers : List α) : UsedUp fine answers answers :=
  ⟨[], rfl, nofun⟩

/-- One more answer. -/
theorem tail (used : UsedUp fine answers (answer :: rest)) (good : fine answer) :
    UsedUp fine answers rest := by
  rcases used with ⟨before, rfl, all⟩
  refine ⟨before ++ [answer], by simp, ?_⟩
  intro other member
  rcases List.mem_append.mp member with earlier | last
  · exact all other earlier
  · exact List.mem_singleton.mp last ▸ good

theorem spoilt (used : UsedUp fine answers (answer :: rest)) (bad : ¬fine answer) :
    Spoilt fine answers rest := by
  rcases used with ⟨before, rfl, _⟩
  exact ⟨before ++ [answer], by simp, answer, by simp, bad⟩

theorem not_spoilt (used : UsedUp fine answers rest) : ¬Spoilt fine answers rest := by
  rcases used with ⟨before, rfl, all⟩
  rintro ⟨other, equal, answer, member, bad⟩
  rw [List.append_cancel_right equal] at all
  exact bad (all answer member)

end UsedUp

end CExamples.Sequence
