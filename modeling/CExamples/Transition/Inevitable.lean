import CExamples.Transition.Core

/-!
# What every run meets

A set of states is inevitable from a state when every run from there meets it:
the state belongs to it, or some action is enabled and all of them lead to
states from which the set is inevitable.  A variant that decreases until the set
is met, on states where some action is enabled, makes it inevitable.
-/

namespace CExamples.Transition

universe u v

variable {σ : Type u} {α : Type v}

/-- Every run from the state meets `goal`. -/
inductive Inevitably (next : Step σ α) (goal : σ → Prop) : σ → Prop
  | here {state : σ} (met : goal state) : Inevitably next goal state
  | later {state : σ} (enabled : ∃ action successor, next state action = some successor)
      (all : ∀ action successor, next state action = some successor →
        Inevitably next goal successor) :
      Inevitably next goal state

/-- What is inevitable happens in some run. -/
theorem Inevitably.exists_reachable {next : Step σ α} {goal : σ → Prop} {state : σ}
    (inevitably : Inevitably next goal state) :
    ∃ target, Reachable next state target ∧ goal target := by
  induction inevitably with
  | here met => exact ⟨_, Reachable.refl next _, met⟩
  | later enabled _ ih =>
      obtain ⟨action, successor, stepped⟩ := enabled
      obtain ⟨target, rest, met⟩ := ih action successor stepped
      exact ⟨target, (Reachable.single stepped).trans rest, met⟩

theorem Inevitably.mono {next : Step σ α} {goal weaker : σ → Prop} {state : σ}
    (inevitably : Inevitably next goal state) (weaken : ∀ state, goal state → weaker state) :
    Inevitably next weaker state := by
  induction inevitably with
  | here met => exact .here (weaken _ met)
  | later enabled _ ih => exact .later enabled ih

/-- Where nothing can happen any more, what is inevitable has happened. -/
theorem Inevitably.of_stuck {next : Step σ α} {goal : σ → Prop} {state : σ}
    (inevitably : Inevitably next goal state) (stuck : Stuck next state) : goal state := by
  cases inevitably with
  | here met => exact met
  | later enabled _ =>
      obtain ⟨action, successor, stepped⟩ := enabled
      rw [stuck action] at stepped
      cases stepped

/-- What a step out of a state of `inv` that misses `goal` has to do. -/
structure Descends (next : Step σ α) (inv goal : σ → Prop) (variant : σ → Nat) : Prop where
  enabled : ∀ state, inv state → ¬goal state →
    ∃ action successor, next state action = some successor
  keeps : ∀ state action successor, inv state → ¬goal state →
    next state action = some successor → inv successor
  decreases : ∀ state action successor, inv state → ¬goal state →
    next state action = some successor → variant successor < variant state

/-- A variant that decreases until the goal is met makes the goal inevitable. -/
theorem Descends.inevitably {next : Step σ α} {inv goal : σ → Prop} {variant : σ → Nat}
    (descends : Descends next inv goal variant) {state : σ} (holds : inv state) :
    Inevitably next goal state := by
  induction bound : variant state using Nat.strongRecOn generalizing state with
  | ind _ ih =>
      by_cases met : goal state
      · exact Inevitably.here met
      · apply Inevitably.later (descends.enabled state holds met)
        intro action successor stepped
        apply ih _ _ (descends.keeps state action successor holds met stepped) rfl
        rw [← bound]
        exact descends.decreases state action successor holds met stepped

end CExamples.Transition
