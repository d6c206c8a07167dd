import CExamples.Semaphores.Core

/-!
# Who has the semaphore

At any time the semaphore is free or with one of the two processes.  The invariant is
proved from what the steps of the processes can do.
-/

namespace CExamples.Semaphores

open CExamples.Transition

/-! ## What a step can do -/

/-- The steps of the child. -/
inductive ChildMoves (program : Program) (state : State) : State → Prop
  | starts (childEq : state.child = .start) :
      ChildMoves program state
        { state.write (.child "Simulating some work...") with child := .wait }
  | takes {value : Nat} (childEq : state.child = .wait)
      (free : state.semaphore = some (value + 1)) :
      ChildMoves program state { state with semaphore := some value, child := .work }
  | works (childEq : state.child = .work) :
      ChildMoves program state { state.write (.child "Done work.") with child := .post }
  | posts (childEq : state.child = .post) :
      ChildMoves program state { state.post with child := .exited true }
  | fails (childEq : state.child = .wait) :
      ChildMoves program state (state.childFailed program.childError)

theorem take_eq_some {state next : State} (taken : state.take = some next) :
    ∃ value, state.semaphore = some (value + 1) ∧ next = { state with semaphore := some value } := by
  rcases Option.map_eq_some_iff.mp taken with ⟨value, waited, rfl⟩
  rcases Option.bind_eq_some_iff.mp waited with ⟨before, semaphoreEq, counted⟩
  rw [semWait_eq_some] at counted
  exact ⟨value, by rw [semaphoreEq, counted], rfl⟩

theorem childStep_moves {program : Program} {state next : State}
    (stepped : childStep state = some next) : ChildMoves program state next := by
  cases childEq : state.child with
  | start =>
      simp only [childStep, childEq] at stepped
      cases stepped
      exact .starts childEq
  | wait =>
      simp only [childStep, childEq] at stepped
      rcases Option.map_eq_some_iff.mp stepped with ⟨middle, taken, rfl⟩
      rcases take_eq_some taken with ⟨value, free, rfl⟩
      exact .takes childEq free
  | work =>
      simp only [childStep, childEq] at stepped
      cases stepped
      exact .works childEq
  | post =>
      simp only [childStep, childEq] at stepped
      cases stepped
      exact .posts childEq
  | _ =>
      simp only [childStep, childEq] at stepped
      cases stepped

theorem childFails_moves {program : Program} {state next : State}
    (stepped : childFails program state = some next) : ChildMoves program state next := by
  cases childEq : state.child with
  | wait =>
      simp only [childFails, childEq] at stepped
      cases stepped
      exact .fails childEq
  | _ =>
      simp only [childFails, childEq] at stepped
      cases stepped

/-- The parent is at the call that gets the semaphore. -/
def Parent.Claims (parent : Parent) : Prop :=
  parent = .wait ∨ ∃ count, parent = .attempt count

/-- The steps of `main` and of the parent. -/
inductive ParentMoves (program : Program) (state : State) : State → Prop
  | refuses (parentEq : state.parent = .create) :
      ParentMoves program state
        { state.write (.perror "Semaphore creation failed") with parent := .exited false }
  | creates (parentEq : state.parent = .create) (free : state.linked = false) :
      ParentMoves program state { state with semaphore := some 1, linked := true, parent := .fork }
  | forks (parentEq : state.parent = .fork) :
      ParentMoves program state { state with child := .start, parent := .start }
  | begins (parentEq : state.parent = .start) :
      ParentMoves program state
        { state.write (.parent "Waiting for the child to complete...") with
          parent := program.enter }
  | takes {value : Nat} (claims : state.parent.Claims)
      (free : state.semaphore = some (value + 1)) :
      ParentMoves program state
        { state.write (.parent program.got) with semaphore := some value, parent := .post }
  | retries {count : Nat} (parentEq : state.parent = .attempt (count + 2)) :
      ParentMoves program state
        { state.write (.parent "Child not ready. Retrying...") with parent := .attempt (count + 1) }
  | leaves (parentEq : state.parent = .attempt 0) :
      ParentMoves program state { state with parent := .join }
  | posts (lines : List String) (parentEq : state.parent = .post) :
      ParentMoves program state
        { state.post with output := state.output ++ lines.map .parent, parent := .join }
  | joins (parentEq : state.parent = .join) (ended : state.child.ended = true) :
      ParentMoves program state { state.write (.parent program.joined) with parent := .unlink }
  | unlinks (parentEq : state.parent = .unlink) (linked : state.linked = true) :
      ParentMoves program state { state with linked := false, parent := .exited true }
  | misses (parentEq : state.parent = .unlink) (unlinked : state.linked = false) :
      ParentMoves program state
        { state.write (.perror "sem_unlink failed") with parent := .exited false }
  | fails (text : String)
      (fallible : state.parent = .fork ∨ state.parent.Claims ∨ state.parent = .join) :
      ParentMoves program state (state.parentFailed text)

/-- What happens when `sem_trywait` returns -1. -/
theorem retry_moves {program : Program} {state : State} {count : Nat}
    (parentEq : state.parent = .attempt count) (left : count > 0) :
    ParentMoves program state (retry state count) := by
  cases count with
  | zero => cases left
  | succ count =>
      cases count with
      | zero => exact .fails _ (Or.inr (Or.inl (Or.inr ⟨1, parentEq⟩)))
      | succ count => exact .retries parentEq

theorem parentStep_moves {program : Program} {state next : State}
    (stepped : parentStep program state = some next) : ParentMoves program state next := by
  cases parentEq : state.parent with
  | create =>
      simp only [parentStep, parentEq] at stepped
      split at stepped
      · cases stepped
        exact .refuses parentEq
      · rename_i free
        cases stepped
        exact .creates parentEq (by simpa using free)
  | fork =>
      simp only [parentStep, parentEq] at stepped
      cases stepped
      exact .forks parentEq
  | start =>
      simp only [parentStep, parentEq] at stepped
      cases stepped
      exact .begins parentEq
  | wait =>
      simp only [parentStep, parentEq] at stepped
      rcases Option.map_eq_some_iff.mp stepped with ⟨middle, taken, rfl⟩
      rcases take_eq_some taken with ⟨value, free, rfl⟩
      exact .takes (Or.inl parentEq) free
  | attempt count =>
      simp only [parentStep, parentEq] at stepped
      split at stepped
      · rename_i left
        split at stepped
        · rename_i middle taken
          cases stepped
          rcases take_eq_some taken with ⟨value, free, rfl⟩
          exact .takes (Or.inr ⟨count, parentEq⟩) free
        · cases stepped
          exact retry_moves parentEq left
      · rename_i none
        cases stepped
        rw [Nat.eq_zero_of_not_pos none] at parentEq
        exact .leaves parentEq
  | post =>
      simp only [parentStep, parentEq] at stepped
      cases program with
      | wait =>
          cases stepped
          have moved : ParentMoves .wait state
              { state.post with output := state.output ++ [], parent := .join } :=
            .posts [] parentEq
          rwa [List.append_nil] at moved
      | trywait =>
          cases stepped
          exact ParentMoves.posts ["Child signaled. Continue processing..."] parentEq
  | join =>
      simp only [parentStep, parentEq] at stepped
      split at stepped
      · rename_i ended
        cases stepped
        exact .joins parentEq ended
      · cases stepped
  | unlink =>
      simp only [parentStep, parentEq] at stepped
      split at stepped
      · rename_i linked
        cases stepped
        exact .unlinks parentEq linked
      · rename_i unlinked
        cases stepped
        exact .misses parentEq (by simpa using unlinked)
  | exited success =>
      simp only [parentStep, parentEq] at stepped
      cases stepped

theorem parentFails_moves {program : Program} {state next : State}
    (stepped : parentFails state = some next) : ParentMoves program state next := by
  cases parentEq : state.parent with
  | create =>
      simp only [parentFails, parentEq] at stepped
      cases stepped
      exact .refuses parentEq
  | fork =>
      simp only [parentFails, parentEq] at stepped
      cases stepped
      exact .fails _ (Or.inl parentEq)
  | wait =>
      simp only [parentFails, parentEq] at stepped
      cases stepped
      exact .fails _ (Or.inr (Or.inl (Or.inl parentEq)))
  | attempt count =>
      simp only [parentFails, parentEq] at stepped
      split at stepped
      · rename_i left
        cases stepped
        exact retry_moves parentEq left
      · cases stepped
  | join =>
      simp only [parentFails, parentEq] at stepped
      cases stepped
      exact .fails _ (Or.inr (Or.inr parentEq))
  | _ =>
      simp only [parentFails, parentEq] at stepped
      cases stepped

/-! ## Who has the semaphore -/

/-- The child has the semaphore. -/
def Child.holds : Child → Nat
  | .work => 1
  | .post => 1
  | _ => 0

/-- The parent has the semaphore. -/
def Parent.holds : Parent → Nat
  | .post => 1
  | _ => 0

/-- The semaphore is free or with one of the processes. -/
structure Shared (state : State) : Prop where
  fresh : state.parent = .create → state.semaphore = none
  created : state.semaphore = none →
    state.child = .absent ∧ (state.parent = .create ∨ state.parent = .exited false)
  forked : state.parent = .create ∨ state.parent = .fork → state.child = .absent
  early : state.child = .absent →
    state.parent = .create ∨ state.parent = .fork ∨ state.parent = .exited false
  one : ∀ value, state.semaphore = some value →
    value + state.child.holds + state.parent.holds = 1

theorem Parent.Claims.holds {parent : Parent} (claims : parent.Claims) : parent.holds = 0 := by
  rcases claims with rfl | ⟨count, rfl⟩ <;> rfl

namespace Shared

variable {program : Program} {state next : State}

/-- A step of the child that neither takes nor posts the semaphore. -/
theorem child (shared : Shared state) (present : state.child ≠ .absent)
    (nextPresent : next.child ≠ .absent) (semaphore : next.semaphore = state.semaphore)
    (parent : next.parent = state.parent) (holds : next.child.holds = state.child.holds) :
    Shared next where
  fresh begins := by
    rw [semaphore]
    exact shared.fresh (parent ▸ begins)
  created none := absurd (shared.created (semaphore ▸ none)).1 present
  forked begins := absurd (shared.forked (parent ▸ begins)) present
  early absent := absurd absent nextPresent
  one value semaphoreEq := by
    rw [holds, parent]
    exact shared.one value (semaphore ▸ semaphoreEq)

theorem childMoves (shared : Shared state) (moves : ChildMoves program state next) :
    Shared next := by
  cases moves with
  | starts childEq => exact shared.child (by simp [childEq]) nofun rfl rfl (by rw [childEq]; rfl)
  | takes childEq free =>
      have before := shared.one _ free
      rw [childEq] at before
      constructor
      · exact fun begins => absurd (shared.forked (Or.inl begins)) (by simp [childEq])
      · exact nofun
      · exact fun begins => absurd (shared.forked begins) (by simp [childEq])
      · exact nofun
      · rintro value ⟨⟩
        simp only [Child.holds] at before ⊢
        omega
  | works childEq => exact shared.child (by simp [childEq]) nofun rfl rfl (by rw [childEq]; rfl)
  | posts childEq =>
      have present : state.child ≠ .absent := by simp [childEq]
      constructor
      · exact fun begins => absurd (shared.forked (Or.inl begins)) present
      · exact fun none => absurd (shared.created (Option.map_eq_none_iff.mp none)).1 present
      · exact fun begins => absurd (shared.forked begins) present
      · exact nofun
      · intro value semaphoreEq
        rcases Option.map_eq_some_iff.mp semaphoreEq with ⟨before, beforeEq, rfl⟩
        have total := shared.one before beforeEq
        rw [childEq] at total
        simp only [State.post, Child.holds] at total ⊢
        omega
  | fails childEq => exact shared.child (by simp [childEq]) nofun rfl rfl (by rw [childEq]; rfl)

/-- A step of the parent after `fork` that neither takes nor posts the semaphore. -/
theorem parent (shared : Shared state) (present : state.semaphore ≠ none)
    (semaphore : next.semaphore = state.semaphore) (child : next.child = state.child)
    (holds : next.parent.holds = state.parent.holds)
    (later : ¬(next.parent = .create ∨ next.parent = .fork))
    (early : state.child = .absent → next.parent = .exited false) : Shared next where
  fresh begins := absurd (Or.inl begins) later
  created none := absurd (semaphore ▸ none) present
  forked begins := absurd begins later
  early absent := Or.inr (Or.inr (early (child ▸ absent)))
  one value semaphoreEq := by
    rw [holds, child]
    exact shared.one value (semaphore ▸ semaphoreEq)

theorem parentMoves (shared : Shared state) (moves : ParentMoves program state next) :
    Shared next := by
  have forked (begun : ¬(state.parent = .create ∨ state.parent = .fork ∨
      state.parent = .exited false)) : state.child ≠ .absent :=
    fun absent => begun (shared.early absent)
  have present (begun : ¬(state.parent = .create ∨ state.parent = .exited false)) :
      state.semaphore ≠ none := fun none => begun (shared.created none).2
  cases moves with
  | refuses parentEq =>
      have one := shared.one
      rw [parentEq] at one
      exact ⟨by simp, fun none => ⟨(shared.created none).1, Or.inr rfl⟩, by simp, by simp, one⟩
  | creates parentEq =>
      have absent := shared.forked (Or.inl parentEq)
      refine ⟨by simp, nofun, fun _ => absent, by simp, ?_⟩
      rintro value ⟨⟩
      simp only [absent]
      rfl
  | forks parentEq =>
      have present := present (by simp [parentEq])
      have one := shared.one
      rw [shared.forked (Or.inr parentEq), parentEq] at one
      exact ⟨by simp, fun none => absurd none present, by simp, by simp, one⟩
  | begins parentEq =>
      refine shared.parent (present (by simp [parentEq])) rfl rfl ?_ ?_ ?_
      · rw [parentEq]
        cases program <;> rfl
      · cases program <;> simp [Program.enter]
      · exact fun absent => absurd absent (forked (by simp [parentEq]))
  | takes claims free =>
      have before := shared.one _ free
      rw [claims.holds] at before
      have running : state.child ≠ .absent := by
        apply forked
        rcases claims with parentEq | ⟨count, parentEq⟩ <;> simp [parentEq]
      refine ⟨by simp, nofun, by simp, fun absent => absurd absent running, ?_⟩
      rintro value ⟨⟩
      simp only [State.write, Parent.holds]
      omega
  | retries parentEq =>
      exact shared.parent (present (by simp [parentEq])) rfl rfl (by rw [parentEq]; rfl) (by simp)
        fun absent => absurd absent (forked (by simp [parentEq]))
  | leaves parentEq =>
      exact shared.parent (present (by simp [parentEq])) rfl rfl (by rw [parentEq]; rfl) (by simp)
        fun absent => absurd absent (forked (by simp [parentEq]))
  | posts lines parentEq =>
      have present := present (by simp [parentEq])
      have running := forked (by simp [parentEq])
      refine ⟨by simp, fun none => absurd (Option.map_eq_none_iff.mp none) present, by simp,
        fun absent => absurd absent running, ?_⟩
      intro value semaphoreEq
      rcases Option.map_eq_some_iff.mp semaphoreEq with ⟨before, beforeEq, rfl⟩
      have total := shared.one before beforeEq
      rw [parentEq] at total
      simp only [State.post, Parent.holds] at total ⊢
      omega
  | joins parentEq ended =>
      exact shared.parent (present (by simp [parentEq])) rfl rfl (by rw [parentEq]; rfl) (by simp)
        fun absent => absurd absent (forked (by simp [parentEq]))
  | unlinks parentEq linked =>
      exact shared.parent (present (by simp [parentEq])) rfl rfl (by rw [parentEq]; rfl) (by simp)
        fun absent => absurd absent (forked (by simp [parentEq]))
  | misses parentEq unlinked =>
      exact shared.parent (present (by simp [parentEq])) rfl rfl (by rw [parentEq]; rfl) (by simp)
        fun _ => rfl
  | fails text fallible =>
      have begun : ¬(state.parent = .create ∨ state.parent = .exited false) := by
        rcases fallible with parentEq | (parentEq | ⟨count, parentEq⟩) | parentEq <;> simp [parentEq]
      have holds : state.parent.holds = 0 := by
        rcases fallible with parentEq | claims | parentEq
        · rw [parentEq]
          rfl
        · exact claims.holds
        · rw [parentEq]
          rfl
      exact shared.parent (present begun) rfl rfl (by rw [holds]; rfl)
        (by simp [State.parentFailed]) fun _ => rfl

theorem initial {linked : Bool} : Shared (initial linked) where
  fresh _ := rfl
  created _ := ⟨rfl, Or.inl rfl⟩
  forked _ := rfl
  early _ := Or.inl rfl
  one := nofun

end Shared

end CExamples.Semaphores
