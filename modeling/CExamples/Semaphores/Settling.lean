import CExamples.Semaphores.Sharing
import CExamples.Transition.Inevitable

/-!
# What is left when both processes have ended

The semaphore is free or with one of the two processes.  A process that waits for it
therefore waits for one that can go on, and every run ends, whichever calls fail.
The name is gone then, by the process that failed or by the parent at the end, and
the parent ends well exactly if no error was reported.  A run that finds the name of
another one only reports the error.
-/

namespace CExamples.Semaphores

open CExamples.Transition

/-! ## What the processes leave behind -/

/-- The error of a run that finds the name of another one. -/
def refusal : Line :=
  .perror "Semaphore creation failed"

/-- What is known about the name, the errors and the ends of the processes. -/
structure Recorded (existed : Bool) (state : State) : Prop where
  absent : state.semaphore = none → state.linked = existed ∧
    state.output = if state.parent = .create then [] else [refusal]
  created : state.semaphore ≠ none → existed = false
  linked : state.semaphore ≠ none →
    (state.linked = true ↔ (∀ success, state.parent ≠ .exited success) ∧
      state.child ≠ .exited false)
  reported : (∃ text, .perror text ∈ state.output) ↔
    state.parent = .exited false ∨ state.child = .exited false
  joined : state.parent = .unlink → state.child.ended = true
  success : state.parent = .exited true → state.child = .exited true

namespace Recorded

variable {existed : Bool} {program : Program} {state next : State}

/-- A step of the child that does not fail. -/
theorem child (recorded : Recorded existed state) (present : state.semaphore ≠ none)
    (nextPresent : next.semaphore ≠ none) (linked : next.linked = state.linked)
    (parent : next.parent = state.parent) (lines : List String)
    (output : next.output = state.output ++ lines.map .child)
    (runs : state.child.ended = false) (fine : next.child ≠ .exited false) :
    Recorded existed next := by
  have running (success : Bool) : state.child ≠ .exited success := by
    intro childEq
    rw [childEq] at runs
    cases runs
  constructor
  · exact fun none => absurd none nextPresent
  · exact fun _ => recorded.created present
  · intro _
    rw [linked, parent]
    simpa [fine, running] using recorded.linked present
  · rw [output, parent]
    simpa [fine, running] using recorded.reported
  · intro unlinks
    have ended := recorded.joined (parent ▸ unlinks)
    rw [runs] at ended
    cases ended
  · exact fun exited => absurd (recorded.success (parent ▸ exited)) (running true)

theorem childMoves (recorded : Recorded existed state) (shared : Shared state)
    (moves : ChildMoves program state next) : Recorded existed next := by
  have present (forked : state.child ≠ .absent) : state.semaphore ≠ none :=
    fun none => forked (shared.created none).1
  cases moves with
  | starts childEq =>
      have present := present (by simp [childEq])
      exact recorded.child present present rfl rfl ["Simulating some work..."] rfl
        (by rw [childEq]; rfl) (by simp)
  | takes childEq free =>
      have present := present (by simp [childEq])
      exact recorded.child present (by simp) rfl rfl [] (List.append_nil _).symm
        (by rw [childEq]; rfl) (by simp)
  | works childEq =>
      have present := present (by simp [childEq])
      exact recorded.child present present rfl rfl ["Done work."] rfl (by rw [childEq]; rfl)
        (by simp)
  | posts childEq =>
      have present := present (by simp [childEq])
      exact recorded.child present (by simpa [State.post] using present) rfl rfl []
        (List.append_nil _).symm (by rw [childEq]; rfl) (by simp)
  | fails childEq =>
      have present := present (by simp [childEq])
      constructor
      · exact fun none => absurd none present
      · exact fun _ => recorded.created present
      · simp [State.childFailed]
      · simp [State.childFailed, State.write]
      · exact fun _ => rfl
      · intro exited
        have ended := recorded.success exited
        rw [childEq] at ended
        cases ended

/-- A step of the parent that does not end it. -/
theorem parent (recorded : Recorded existed state) (present : state.semaphore ≠ none)
    (nextPresent : next.semaphore ≠ none) (linked : next.linked = state.linked)
    (child : next.child = .exited false ↔ state.child = .exited false) (lines : List String)
    (output : next.output = state.output ++ lines.map .parent)
    (runs : ∀ success, state.parent ≠ .exited success)
    (goes : ∀ success, next.parent ≠ .exited success)
    (joined : next.parent = .unlink → next.child.ended = true) : Recorded existed next := by
  constructor
  · exact fun none => absurd none nextPresent
  · exact fun _ => recorded.created present
  · intro _
    rw [linked, ne_eq, child]
    simpa [goes, runs] using recorded.linked present
  · rw [output, child]
    simpa [goes, runs] using recorded.reported
  · exact joined
  · exact fun exited => absurd exited (goes true)

theorem parentMoves (recorded : Recorded existed state) (shared : Shared state)
    (moves : ParentMoves program state next) : Recorded existed next := by
  have present (begun : ¬(state.parent = .create ∨ state.parent = .exited false)) :
      state.semaphore ≠ none := fun none => begun (shared.created none).2
  cases moves with
  | refuses parentEq =>
      have none := shared.fresh parentEq
      rcases recorded.absent none with ⟨linked, output⟩
      rw [if_pos parentEq] at output
      constructor
      · exact fun _ => ⟨linked, by simp [State.write, output, refusal]⟩
      · exact fun present => absurd none present
      · exact fun present => absurd none present
      · simp [State.write]
      · simp
      · simp
  | creates parentEq free =>
      rcases recorded.absent (shared.fresh parentEq) with ⟨linked, output⟩
      rw [if_pos parentEq] at output
      have absent := shared.forked (Or.inl parentEq)
      constructor
      · simp
      · exact fun _ => by rw [← linked, free]
      · simp [absent]
      · simp [output, absent]
      · simp
      · simp
  | forks parentEq =>
      have present := present (by simp [parentEq])
      have absent := shared.forked (Or.inr parentEq)
      exact recorded.parent present present rfl (by simp [absent]) [] (List.append_nil _).symm
        (by simp [parentEq]) (by simp) (by simp)
  | begins parentEq =>
      have present := present (by simp [parentEq])
      refine recorded.parent present present rfl Iff.rfl
        ["Waiting for the child to complete..."] rfl (by simp [parentEq]) ?_ ?_
      · cases program <;> simp [Program.enter]
      · cases program <;> simp [Program.enter]
  | takes claims free =>
      have running : ∀ success, state.parent ≠ .exited success := by
        rcases claims with parentEq | ⟨count, parentEq⟩ <;> simp [parentEq]
      exact recorded.parent (by simp [free]) (by simp) rfl Iff.rfl [program.got] rfl running
        (by simp) (by simp)
  | retries parentEq =>
      have present := present (by simp [parentEq])
      exact recorded.parent present present rfl Iff.rfl ["Child not ready. Retrying..."] rfl
        (by simp [parentEq]) (by simp) (by simp)
  | leaves parentEq =>
      have present := present (by simp [parentEq])
      exact recorded.parent present present rfl Iff.rfl [] (List.append_nil _).symm
        (by simp [parentEq]) (by simp) (by simp)
  | posts lines parentEq =>
      have present := present (by simp [parentEq])
      exact recorded.parent present (by simpa [State.post] using present) rfl Iff.rfl lines rfl
        (by simp [parentEq]) (by simp) (by simp)
  | joins parentEq ended =>
      have present := present (by simp [parentEq])
      exact recorded.parent present present rfl Iff.rfl [program.joined] rfl (by simp [parentEq])
        (by simp) (fun _ => ended)
  | unlinks parentEq linked =>
      have present := present (by simp [parentEq])
      have ended := recorded.joined parentEq
      have fine := ((recorded.linked present).mp linked).2
      have childEq : state.child = .exited true := by
        cases childEq : state.child with
        | exited success =>
            cases success with
            | true => rfl
            | false => exact absurd childEq fine
        | _ =>
            rw [childEq] at ended
            cases ended
      constructor
      · exact fun none => absurd none present
      · exact fun _ => recorded.created present
      · simp
      · simpa [parentEq] using recorded.reported
      · exact fun _ => ended
      · exact fun _ => childEq
  | misses parentEq unlinked =>
      have present := present (by simp [parentEq])
      constructor
      · exact fun none => absurd none present
      · exact fun _ => recorded.created present
      · simp [State.write, unlinked]
      · simp [State.write]
      · simp
      · simp
  | fails text fallible =>
      have present := present (by
        rcases fallible with parentEq | (parentEq | ⟨count, parentEq⟩) | parentEq <;>
          simp [parentEq])
      constructor
      · exact fun none => absurd none present
      · exact fun _ => recorded.created present
      · simp [State.parentFailed]
      · simp [State.parentFailed, State.write]
      · simp [State.parentFailed]
      · simp [State.parentFailed]

theorem initial : Recorded existed (initial existed) where
  absent _ := ⟨rfl, rfl⟩
  created := nofun
  linked := nofun
  reported := by simp [Semaphores.initial]
  joined := nofun
  success := nofun

end Recorded

/-! ## Every run -/

/-- Both processes have ended.  -/
structure Settled (existed : Bool) (state : State) : Prop where
  parent : ∃ success, state.parent = .exited success
  child : state.child = .absent ∨ ∃ success, state.child = .exited success
  /-- The name exists if it did before. -/
  linked : state.linked = existed
  /-- Where it did, nothing was done. -/
  refused : existed = true → state.child = .absent ∧ state.output = [refusal]
  /-- The parent ends well exactly if no error was reported. -/
  success : state.parent = .exited true ↔ ∀ text, .perror text ∉ state.output

/-- What the run promises in each of its states. -/
structure Promises (program : Program) (existed : Bool) (state : State) : Prop where
  /-- At most one process has the semaphore. -/
  exclusive : state.child.holds + state.parent.holds ≤ 1
  /-- The parent does not end well before the child has. -/
  inOrder : state.parent = .exited true → state.child = .exited true
  /-- Nobody waits for a call to fail. -/
  moves : ¬Settled existed state →
    ∃ action next, action.succeeds = true ∧ step program state action = some next
  /-- Every run ends, whichever calls fail. -/
  settles : Inevitably (step program) (Settled existed) state

section Runs

variable {existed : Bool} {program : Program} {state next : State}

/-- A step of either process. -/
theorem step_moves {action : Action} (stepped : step program state action = some next) :
    ChildMoves program state next ∨ ParentMoves program state next := by
  cases action with
  | child => exact Or.inl (childStep_moves stepped)
  | childFails => exact Or.inl (childFails_moves stepped)
  | parent => exact Or.inr (parentStep_moves stepped)
  | parentFails => exact Or.inr (parentFails_moves stepped)

theorem keeps_shared_recorded {action : Action} (shared : Shared state)
    (recorded : Recorded existed state) (stepped : step program state action = some next) :
    Shared next ∧ Recorded existed next := by
  rcases step_moves stepped with moves | moves
  · exact ⟨shared.childMoves moves, recorded.childMoves shared moves⟩
  · exact ⟨shared.parentMoves moves, recorded.parentMoves shared moves⟩

theorem reachable_recorded (reachable : Reachable (step program) (initial existed) state) :
    Shared state ∧ Recorded existed state := by
  apply reachable.invariant ⟨Shared.initial, Recorded.initial⟩
  rintro before action after ⟨shared, recorded⟩ stepped
  exact keeps_shared_recorded shared recorded stepped

/-- What both processes leave behind when they have ended. -/
theorem Recorded.settled (recorded : Recorded existed state) (shared : Shared state)
    {success : Bool} (parentEq : state.parent = .exited success)
    (child : state.child = .absent ∨ ∃ success, state.child = .exited success) :
    Settled existed state := by
  refine ⟨⟨success, parentEq⟩, child, ?_, ?_, ?_⟩
  · by_cases none : state.semaphore = none
    · exact (recorded.absent none).1
    · have unlinked : ¬state.linked = true := fun linked =>
        ((recorded.linked none).mp linked).1 success parentEq
      rw [recorded.created none]
      simpa using unlinked
  · intro existedEq
    have none : state.semaphore = none := by
      by_contra present
      rw [recorded.created present] at existedEq
      cases existedEq
    have output := (recorded.absent none).2
    rw [if_neg (by simp [parentEq])] at output
    exact ⟨(shared.created none).1, output⟩
  · rw [← not_exists, recorded.reported]
    constructor
    · intro exited
      simp [exited, recorded.success exited]
    · intro fine
      cases success with
      | true => exact parentEq
      | false => exact absurd (Or.inl parentEq) fine

/-- A child that has not ended moves on unless the parent has the semaphore. -/
theorem child_moves (shared : Shared state) (runs : ∀ success, state.child ≠ .exited success)
    (forked : state.child ≠ .absent) (free : state.parent.holds = 0) :
    ∃ next, childStep state = some next := by
  cases childEq : state.child with
  | absent => exact absurd childEq forked
  | start => exact ⟨_, by rw [childStep, childEq]⟩
  | wait =>
      cases semaphoreEq : state.semaphore with
      | none => exact absurd (shared.created semaphoreEq).1 forked
      | some value =>
          have one := shared.one value semaphoreEq
          rw [childEq, free] at one
          simp only [Child.holds] at one
          have valueEq : value = 1 := by omega
          subst valueEq
          exact ⟨{ state with semaphore := some 0, child := .work },
            by simp [childStep, childEq, State.take, semaphoreEq, semWait]⟩
  | work => exact ⟨_, by rw [childStep, childEq]⟩
  | post => exact ⟨_, by rw [childStep, childEq]⟩
  | exited success => exact absurd childEq (runs success)

/-- A parent that has not ended moves on, or waits for a child that can. -/
theorem parent_moves (shared : Shared state) (runs : ∀ success, state.parent ≠ .exited success) :
    (∃ next, parentStep program state = some next) ∨ ∃ next, childStep state = some next := by
  cases parentEq : state.parent with
  | create =>
      left
      by_cases linked : state.linked = true
      · exact ⟨_, by rw [parentStep, parentEq]; exact if_pos linked⟩
      · exact ⟨_, by rw [parentStep, parentEq]; exact if_neg linked⟩
  | fork => exact Or.inl ⟨_, by rw [parentStep, parentEq]⟩
  | start => exact Or.inl ⟨_, by rw [parentStep, parentEq]⟩
  | wait =>
      cases semaphoreEq : state.semaphore with
      | none =>
          rcases (shared.created semaphoreEq).2 with other | other <;> simp [parentEq] at other
      | some value =>
          cases value with
          | zero =>
              right
              have one := shared.one 0 semaphoreEq
              rw [parentEq] at one
              cases childEq : state.child with
              | work => exact ⟨_, by rw [childStep, childEq]⟩
              | post => exact ⟨_, by rw [childStep, childEq]⟩
              | _ =>
                  rw [childEq] at one
                  cases one
          | succ value =>
              left
              exact ⟨{ state.write (.parent program.got) with
                  semaphore := some value, parent := .post },
                by simp [parentStep, parentEq, State.take, State.write, semaphoreEq, semWait]⟩
  | attempt count =>
      left
      by_cases left : count > 0
      · cases taken : state.take with
        | some middle => exact ⟨_, by rw [parentStep, parentEq]; simp only [if_pos left, taken]; rfl⟩
        | none => exact ⟨_, by rw [parentStep, parentEq]; simp only [if_pos left, taken]; rfl⟩
      · exact ⟨_, by rw [parentStep, parentEq]; exact if_neg left⟩
  | post =>
      left
      cases program with
      | wait => exact ⟨_, by rw [parentStep, parentEq]; rfl⟩
      | trywait => exact ⟨_, by rw [parentStep, parentEq]; rfl⟩
  | join =>
      by_cases ended : state.child.ended = true
      · left
        exact ⟨_, by rw [parentStep, parentEq]; exact if_pos ended⟩
      · right
        apply child_moves shared
        · intro success childEq
          rw [childEq] at ended
          exact ended rfl
        · intro absent
          have early := shared.early absent
          simp [parentEq] at early
        · rw [parentEq]
          rfl
  | unlink =>
      left
      by_cases linked : state.linked = true
      · exact ⟨_, by rw [parentStep, parentEq]; exact if_pos linked⟩
      · exact ⟨_, by rw [parentStep, parentEq]; exact if_neg linked⟩
  | exited success => exact absurd parentEq (runs success)

/-- Until both have ended, some process moves on. -/
theorem Recorded.moves (recorded : Recorded existed state) (shared : Shared state)
    (running : ¬Settled existed state) :
    ∃ action next, action.succeeds = true ∧ step program state action = some next := by
  by_cases parentEnds : ∃ success, state.parent = .exited success
  · rcases parentEnds with ⟨success, parentEq⟩
    have child : ∃ next, childStep state = some next := by
      apply child_moves shared
      · exact fun success' childEq =>
          running (recorded.settled shared parentEq (Or.inr ⟨success', childEq⟩))
      · exact fun absent => running (recorded.settled shared parentEq (Or.inl absent))
      · rw [parentEq]
        rfl
    rcases child with ⟨next, stepped⟩
    exact ⟨.child, next, rfl, stepped⟩
  · push Not at parentEnds
    have moves : (∃ next, parentStep program state = some next) ∨
        ∃ next, childStep state = some next := parent_moves shared parentEnds
    rcases moves with ⟨next, stepped⟩ | ⟨next, stepped⟩
    · exact ⟨.parent, next, rfl, stepped⟩
    · exact ⟨.child, next, rfl, stepped⟩

/-! ## How much is left to do -/

/-- The number of steps that are left to the child. -/
def Child.rank : Child → Nat
  | .absent => 5
  | .start => 4
  | .wait => 3
  | .work => 2
  | .post => 1
  | .exited _ => 0

/-- The number of steps that are left to the parent, or more. -/
def Parent.rank : Parent → Nat
  | .create => tryCount + 8
  | .fork => tryCount + 7
  | .start => tryCount + 6
  | .wait => 4
  | .attempt count => count + 4
  | .post => 3
  | .join => 2
  | .unlink => 1
  | .exited _ => 0

/-- The number of steps that are left to both, or more. -/
def State.rank (state : State) : Nat :=
  state.child.rank + state.parent.rank

theorem ChildMoves.rank_lt (moves : ChildMoves program state next) : next.rank < state.rank := by
  cases moves with
  | starts childEq | takes childEq | works childEq | posts childEq | fails childEq =>
      simp [State.rank, childEq, State.write, State.post, State.childFailed, Child.rank]

theorem Parent.Claims.rank_le {parent : Parent} (claims : parent.Claims) : 4 ≤ parent.rank := by
  rcases claims with rfl | ⟨count, rfl⟩ <;> simp [Parent.rank]

theorem ParentMoves.rank_lt (shared : Shared state) (moves : ParentMoves program state next) :
    next.rank < state.rank := by
  cases moves with
  | forks parentEq =>
      simp only [State.rank, parentEq, shared.forked (Or.inr parentEq), Child.rank, Parent.rank]
      omega
  | begins parentEq =>
      cases program <;>
        simp [State.rank, parentEq, State.write, Program.enter, Parent.rank, tryCount]
  | takes claims =>
      have enough := claims.rank_le
      have post : Parent.post.rank = 3 := rfl
      simp only [State.rank, State.write, post]
      omega
  | fails text fallible =>
      have positive : 0 < state.parent.rank := by
        rcases fallible with parentEq | claims | parentEq
        · rw [parentEq, Parent.rank]
          omega
        · have enough := claims.rank_le
          omega
        · rw [parentEq, Parent.rank]
          omega
      have exited : (Parent.exited false).rank = 0 := rfl
      simp only [State.rank, State.parentFailed, State.write, exited]
      omega
  | posts lines parentEq =>
      simp [State.rank, parentEq, State.post, Parent.rank]
  | refuses parentEq | creates parentEq | retries parentEq | leaves parentEq | joins parentEq
  | unlinks parentEq | misses parentEq =>
      simp [State.rank, parentEq, State.write, Parent.rank]

theorem descends (program : Program) (existed : Bool) :
    Descends (step program) (fun state => Shared state ∧ Recorded existed state) (Settled existed)
      State.rank where
  enabled := by
    rintro state ⟨shared, recorded⟩ running
    rcases recorded.moves shared running with ⟨action, next, _, stepped⟩
    exact ⟨action, next, stepped⟩
  keeps := by
    rintro state action next ⟨shared, recorded⟩ _ stepped
    exact keeps_shared_recorded shared recorded stepped
  decreases := by
    rintro state action next ⟨shared, recorded⟩ _ stepped
    rcases step_moves stepped with moves | moves
    · exact moves.rank_lt
    · exact moves.rank_lt shared

/-- In every run of either program, whichever calls fail, the processes exclude each
other and settle. -/
theorem reachable_promises (reachable : Reachable (step program) (initial existed) state) :
    Promises program existed state := by
  rcases reachable_recorded reachable with ⟨shared, recorded⟩
  refine ⟨?_, recorded.success, recorded.moves shared,
    (descends program existed).inevitably ⟨shared, recorded⟩⟩
  cases semaphoreEq : state.semaphore with
  | none =>
      rcases shared.created semaphoreEq with ⟨child, parent | parent⟩ <;>
        simp [child, parent, Child.holds, Parent.holds]
  | some value =>
      have one := shared.one value semaphoreEq
      omega

end Runs

/-- The parent gives up while the child works, and the child posts the semaphore
after it. -/
theorem givenUp_promises :
    ∃ state, Reachable (step .trywait) (initial false) state ∧
      state.parent = .exited false ∧ state.child = .work ∧ Promises .trywait false state := by
  have run : exec (step .trywait) (initial false)
      [.parent, .parent, .child, .child, .parent, .parent, .parent, .parent, .parent, .parent] =
        some ⟨some 0, false, .work, .exited false,
          [.child "Simulating some work...", .parent "Waiting for the child to complete...",
            .parent "Child not ready. Retrying...", .parent "Child not ready. Retrying...",
            .parent "Child not ready. Retrying...", .parent "Child not ready. Retrying...",
            .perror "sem_trywait failed"]⟩ := by decide
  exact ⟨_, reachable_of_exec run, rfl, rfl, reachable_promises (reachable_of_exec run)⟩

end CExamples.Semaphores
