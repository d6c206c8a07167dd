import Mathlib.Logic.Relation

/-!
# Labelled partial transitions

A concurrent program is given by an executable step: an action names the party
that moves and resolves every choice the environment makes for it, and an
action that is disabled in a state has no successor.  A run is a list of
actions; a state is reachable when some run ends in it.

Restricting a step to the actions that meet a guard keeps the states of the
runs all of whose steps meet that guard.
-/

namespace CExamples.Transition

universe u v

variable {σ : Type u} {α : Type v}

/-- The successor of a state under an action, or `none` when the action is
disabled there. -/
abbrev Step (σ : Type u) (α : Type v) := σ → α → Option σ

/-- Some action leads from `source` to `target`. -/
def Succ (next : Step σ α) (source target : σ) : Prop :=
  ∃ action, next source action = some target

/-- `target` is reached from `source` by finitely many steps. -/
def Reachable (next : Step σ α) : σ → σ → Prop :=
  Relation.ReflTransGen (Succ next)

/-- No action is enabled. -/
def Stuck (next : Step σ α) (state : σ) : Prop :=
  ∀ action, next state action = none

/-- Perform a list of actions in order; a disabled action fails the run. -/
def exec (next : Step σ α) : σ → List α → Option σ
  | state, [] => some state
  | state, action :: rest => (next state action).bind fun middle => exec next middle rest

/-- The step that allows only actions meeting `guard`. -/
def restrict (next : Step σ α) (guard : σ → α → Prop)
    [∀ state action, Decidable (guard state action)] : Step σ α :=
  fun state action => if guard state action then next state action else none

theorem Reachable.refl (next : Step σ α) (state : σ) : Reachable next state state :=
  Relation.ReflTransGen.refl

theorem Reachable.single {next : Step σ α} {source target : σ} {action : α}
    (stepped : next source action = some target) : Reachable next source target :=
  Relation.ReflTransGen.single ⟨action, stepped⟩

theorem Reachable.tail {next : Step σ α} {source middle target : σ} {action : α}
    (first : Reachable next source middle) (last : next middle action = some target) :
    Reachable next source target :=
  Relation.ReflTransGen.tail first ⟨action, last⟩

theorem Reachable.trans {next : Step σ α} {source middle target : σ}
    (first : Reachable next source middle) (second : Reachable next middle target) :
    Reachable next source target :=
  Relation.ReflTransGen.trans first second

/-- A property of the first state that every step preserves holds of every
reachable state. -/
theorem Reachable.invariant {next : Step σ α} {inv : σ → Prop} {source target : σ}
    (reachable : Reachable next source target) (initial : inv source)
    (preserved : ∀ state action successor,
      inv state → next state action = some successor → inv successor) :
    inv target := by
  induction reachable with
  | refl => exact initial
  | tail _ step ih =>
      obtain ⟨action, stepEq⟩ := step
      exact preserved _ action _ ih stepEq

/-- A successful run reaches its final state. -/
theorem reachable_of_exec {next : Step σ α} {source target : σ} {actions : List α}
    (run : exec next source actions = some target) : Reachable next source target := by
  induction actions generalizing source with
  | nil =>
      cases run
      exact Relation.ReflTransGen.refl
  | cons action rest ih =>
      obtain ⟨middle, first, last⟩ := Option.bind_eq_some_iff.mp run
      exact Relation.ReflTransGen.head ⟨action, first⟩ (ih last)

section Restrict

variable {next : Step σ α} {guard : σ → α → Prop}
  [∀ state action, Decidable (guard state action)]

theorem restrict_eq_some_iff {state successor : σ} {action : α} :
    restrict next guard state action = some successor ↔
      guard state action ∧ next state action = some successor := by
  unfold restrict
  split <;> simp [*]

/-- Runs of a restricted step are runs of the step itself. -/
theorem Reachable.of_restrict {source target : σ}
    (reachable : Reachable (restrict next guard) source target) :
    Reachable next source target := by
  induction reachable with
  | refl => exact Relation.ReflTransGen.refl
  | tail _ step ih =>
      obtain ⟨action, stepEq⟩ := step
      exact ih.tail (restrict_eq_some_iff.mp stepEq).2

end Restrict

end CExamples.Transition
