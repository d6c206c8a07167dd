import CExamples.Transition.Inevitable

/-!
# Simulation

A system simulates another one along a relation of their states when it answers
each step of the other with one of its own or, where the rank of the state
decreases, with none.  What it reaches, the other reaches in a related state.  As
the rank cannot decrease for ever, what is inevitable for the simulating system is
inevitable for the other, provided that the other is never stuck before it.
-/

namespace CExamples.Transition

universe u v w x

variable {σ : Type u} {α : Type v} {τ : Type w} {β : Type x}

/-- `spec` answers each step of `next` with a step or, when the rank decreases, with
none. -/
def Simulates (next : Step σ α) (spec : Step τ β) (related : σ → τ → Prop)
    (rank : σ → Nat) : Prop :=
  ∀ state above action successor, related state above → next state action = some successor →
    (∃ answer, Succ spec above answer ∧ related successor answer) ∨
      related successor above ∧ rank successor < rank state

namespace Simulates

variable {next : Step σ α} {spec : Step τ β} {related : σ → τ → Prop} {rank : σ → Nat}

/-- What the first system reaches is related to something that the second reaches. -/
theorem reachable (simulates : Simulates next spec related rank) {source target : σ} {above : τ}
    (start : related source above) (run : Reachable next source target) :
    ∃ answer, Reachable spec above answer ∧ related target answer := by
  induction run with
  | refl => exact ⟨above, Reachable.refl spec above, start⟩
  | tail _ step ih =>
      rcases ih with ⟨middle, first, held⟩
      rcases step with ⟨action, stepped⟩
      rcases simulates _ middle action _ held stepped with ⟨answer, answered, after⟩ | ⟨after, _⟩
      · exact ⟨answer, Relation.ReflTransGen.tail first answered, after⟩
      · exact ⟨middle, first, after⟩

/-- Related states that both systems reach stay so. -/
theorem along (simulates : Simulates next spec related rank) (source : σ) (start : τ) :
    Simulates next spec
      (fun state above =>
        related state above ∧ Reachable next source state ∧ Reachable spec start above) rank := by
  rintro state above action successor ⟨held, below, onTop⟩ stepped
  have onwards : Reachable next source successor := below.tail stepped
  rcases simulates state above action successor held stepped with
    ⟨answer, answered, after⟩ | ⟨after, less⟩
  · left
    exact ⟨answer, answered, after, onwards, Relation.ReflTransGen.tail onTop answered⟩
  · right
    exact ⟨⟨after, onwards, onTop⟩, less⟩

/-- What is inevitable above is inevitable below. -/
theorem inevitably (simulates : Simulates next spec related rank) {goal : τ → Prop}
    {target : σ → Prop} (met : ∀ state above, related state above → goal above → target state)
    (enabled : ∀ state above, related state above → ¬goal above →
      ∃ action successor, next state action = some successor)
    {above : τ} (ends : Inevitably spec goal above) {state : σ} (start : related state above) :
    Inevitably next target state := by
  induction ends generalizing state with
  | here reached => exact Inevitably.here (met _ _ start reached)
  | @later above _ _ ih =>
      -- Steps without an answer keep the state above and use up the rank.
      induction bound : rank state using Nat.strongRecOn generalizing state with
      | ind _ unanswered =>
          by_cases reached : goal above
          · exact Inevitably.here (met _ _ start reached)
          · apply Inevitably.later (enabled _ _ start reached)
            intro action successor stepped
            rcases simulates _ _ action successor start stepped with
              ⟨answer, ⟨reaction, answered⟩, after⟩ | ⟨after, less⟩
            · exact ih reaction answer answered after
            · exact unanswered _ (bound ▸ less) after rfl

end Simulates

end CExamples.Transition
