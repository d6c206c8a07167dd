import CExamples.PthreadMutex.Counting
import CExamples.Transition.Inevitable
import Mathlib.Algebra.Order.BigOperators.Group.Finset
import Mathlib.Data.Fintype.Card

/-!
# What the threads have counted

At the end each thread that has got the mutex has printed one line, and
`sharedVariable` is their number.  Under `pthread_mutex_lock` these are all threads;
under `pthread_mutex_trylock` there is at least one.  Every run ends, since a thread
waits only for one that can go on.
-/

namespace CExamples.PthreadMutex

open CExamples.Transition

namespace Worker

/-- The thread has got the mutex. -/
def hasLocked : Worker → Bool
  | .exited => true
  | worker => worker.inSection

/-- The number of steps that are left to the thread, or more. -/
def rank : Worker → Nat
  | .absent => 7
  | .entry => 6
  | .load => 5
  | .store _ => 4
  | .reload => 3
  | .print _ => 2
  | .unlock => 1
  | .exited => 0
  | .skipped => 0

/-- At the end, the threads that have got the mutex are those that have printed. -/
theorem hasLocked_eq {worker : Worker} (ended : worker.ended = true) :
    worker.hasLocked = worker.hasPrinted := by
  cases worker with
  | exited => rfl
  | skipped => rfl
  | _ => cases ended

theorem inSection_of_ended {worker : Worker} (ended : worker.ended = true) :
    worker.inSection = false := by
  cases worker with
  | exited => rfl
  | skipped => rfl
  | _ => cases ended

/-- `sharedVariable` is ahead of the lines only before the line of the thread. -/
theorem Agrees.le {worker : Worker} {sharedVariable lines : Nat}
    (agrees : worker.Agrees sharedVariable lines) :
    sharedVariable ≤ if worker.hasPrinted then lines else lines + 1 := by
  cases worker with
  | store value => exact Nat.le_succ_of_le (Nat.le_of_eq agrees.2)
  | reload => exact Nat.le_of_eq agrees
  | print value => exact Nat.le_of_eq agrees.2
  | unlock => exact Nat.le_of_eq agrees
  | exited => exact Nat.le_of_eq agrees
  | _ => exact Nat.le_succ_of_le (Nat.le_of_eq agrees)

end Worker

/-- The number of steps that are left to `main`, or more. -/
def Main.rank (numThreads : Nat) : Main → Nat
  | .create i => numThreads - i + (numThreads + 2)
  | .join i => numThreads - i + 1
  | .exited => 0
  | .failed => 0

variable {numThreads : Nat} {program : Program} {state after : State numThreads}
  {thread : Fin numThreads}

/-- How many threads have got the mutex. -/
def State.locked (state : State numThreads) : Nat :=
  (Finset.univ.filter fun thread => (state.worker thread).hasLocked = true).card

/-- `main` has left. -/
def State.HasLeft (state : State numThreads) : Prop :=
  state.main = .exited ∨ state.main = .failed

namespace Counting

/-! ## The numbers -/

theorem lines_le (counting : Counting program state) : state.printed.length ≤ numThreads := by
  have distinct := counting.ledger.once.length_le_card
  rwa [List.length_map, Fintype.card_fin] at distinct

/-- `sharedVariable` fits into an `int` as `NUM_THREADS` does. -/
theorem sharedVariable_le (counting : Counting program state) :
    state.sharedVariable ≤ numThreads := by
  have lines := counting.lines_le
  have once := counting.ledger.once
  cases held : state.mutex with
  | none =>
      rw [counting.guarded.free held]
      exact lines
  | some holder =>
      apply Nat.le_trans (counting.guarded.held holder held).le
      split
      · exact lines
      · rename_i pending
        -- the holder has still a line to print
        have new : holder ∉ state.printed.map Prod.fst := by
          rw [counting.ledger.printers]
          exact pending
        have distinct := (List.nodup_cons.mpr ⟨new, once⟩).length_le_card
        rwa [List.length_cons, List.length_map, Fintype.card_fin] at distinct

section Exited

variable (counting : Counting program state) (exited : state.main = .exited)

include counting exited

theorem ended (thread : Fin numThreads) : (state.worker thread).ended = true :=
  counting.managed.joined thread (by rw [exited]; trivial)

theorem free : state.mutex = none := by
  cases held : state.mutex with
  | none => rfl
  | some holder =>
      have inside : (state.worker holder).inSection = true :=
        (counting.guarded.exclusive holder).mpr held
      rw [Worker.inSection_of_ended (counting.ended exited holder)] at inside
      cases inside

theorem lines_eq : state.printed.length = state.locked := by
  have same : (Finset.univ.filter fun thread => (state.worker thread).hasLocked = true) =
      (state.printed.map Prod.fst).toFinset := by
    ext thread
    rw [Finset.mem_filter_univ, List.mem_toFinset, counting.ledger.printers,
      Worker.hasLocked_eq (counting.ended exited thread)]
  rw [State.locked, same, List.toFinset_card_of_nodup counting.ledger.once, List.length_map]

/-- Under `pthread_mutex_lock` no thread leaves without the mutex. -/
theorem locked_eq (lock : program = .lock true) : state.locked = numThreads := by
  have all (thread : Fin numThreads) : (state.worker thread).hasLocked = true := by
    have ended := counting.ended exited thread
    cases workerEq : state.worker thread with
    | exited => rfl
    | skipped =>
        have trylock := (counting.excused thread workerEq).1
        rw [lock] at trylock
        cases trylock
    | _ =>
        rw [workerEq] at ended
        cases ended
  rw [State.locked, Finset.filter_true_of_mem fun thread _ => all thread, Finset.card_univ,
    Fintype.card_fin]

/-- At least one thread gets the mutex. -/
theorem locked_pos (some_thread : 1 ≤ numThreads) : 1 ≤ state.locked := by
  rw [← counting.lines_eq exited]
  let thread : Fin numThreads := ⟨0, some_thread⟩
  have ended := counting.ended exited thread
  have printed : state.printed ≠ [] := by
    cases workerEq : state.worker thread with
    | exited =>
        have line := (counting.ledger.printers thread).mpr (by rw [workerEq]; rfl)
        intro empty
        rw [empty] at line
        cases line
    | skipped =>
        have free := counting.free exited
        exact (counting.excused thread workerEq).2.resolve_left (not_not.mpr free)
    | _ =>
        rw [workerEq] at ended
        cases ended
  exact List.length_pos_iff.mpr printed

end Exited

/-! ## The end of the runs -/

/-- A step of a thread is one that the program takes. -/
theorem exists_step_of_worker (running : ¬state.HasLeft)
    (steps : ∃ after, workerStep program thread state = some after) :
    ∃ action after, step program state action = some after := by
  obtain ⟨after, stepped⟩ := steps
  refine ⟨.worker thread, after, ?_⟩
  rw [step, if_neg fun failed => running (Or.inr failed)]
  exact stepped

theorem exists_step_of_main (running : ¬state.HasLeft)
    (steps : ∃ after, mainStep state = some after) :
    ∃ action after, step program state action = some after := by
  obtain ⟨after, stepped⟩ := steps
  refine ⟨.main, after, ?_⟩
  rw [step, if_neg fun failed => running (Or.inr failed)]
  exact stepped

/-- The thread in the section can go on. -/
theorem exists_workerStep_of_inSection (inside : (state.worker thread).inSection = true) :
    ∃ after, workerStep program thread state = some after := by
  unfold workerStep
  cases workerEq : state.worker thread with
  | load => exact ⟨_, rfl⟩
  | store value => exact ⟨_, rfl⟩
  | reload => exact ⟨_, rfl⟩
  | print value => exact ⟨_, rfl⟩
  | unlock => exact ⟨_, rfl⟩
  | _ =>
      rw [workerEq] at inside
      cases inside

/-- A thread at the mutex can go on if the mutex is free. -/
theorem exists_workerStep_of_entry (workerEq : state.worker thread = .entry)
    (free : state.mutex = none) : ∃ after, workerStep program thread state = some after := by
  unfold workerStep enter
  rw [workerEq, free]
  cases program with
  | lock useMutex => cases useMutex <;> exact ⟨_, rfl⟩
  | trylock => exact ⟨_, rfl⟩

/-- While a thread has not ended, it or the one it waits for can go on. -/
theorem exists_step_of_running (counting : Counting program state) (running : ¬state.HasLeft)
    (present : state.worker thread ≠ .absent) (goes : (state.worker thread).ended = false) :
    ∃ action after, step program state action = some after := by
  by_cases inside : (state.worker thread).inSection = true
  · exact exists_step_of_worker running (exists_workerStep_of_inSection inside)
  · have workerEq : state.worker thread = .entry := by
      cases eq : state.worker thread <;>
        simp_all [Worker.inSection, Worker.ended]
    cases held : state.mutex with
    | none => exact exists_step_of_worker running (exists_workerStep_of_entry workerEq held)
    | some holder =>
        have inside := (counting.guarded.exclusive holder).mpr held
        exact exists_step_of_worker running (exists_workerStep_of_inSection inside)

theorem enabled (counting : Counting program state) (running : ¬state.HasLeft) :
    ∃ action after, step program state action = some after := by
  cases mainEq : state.main with
  | create i =>
      apply exists_step_of_main running
      rw [mainStep, mainEq]
      dsimp only
      split
      · exact ⟨_, rfl⟩
      · exact ⟨_, rfl⟩
  | join i =>
      by_cases inside : i < numThreads
      · cases ended : (state.worker ⟨i, inside⟩).ended with
        | true =>
            apply exists_step_of_main running
            rw [mainStep, mainEq]
            dsimp only
            rw [dif_pos inside, if_pos ended]
            exact ⟨_, rfl⟩
        | false =>
            have present := counting.managed.created ⟨i, inside⟩ (by rw [mainEq]; trivial)
            exact counting.exists_step_of_running running present ended
      · apply exists_step_of_main running
        rw [mainStep, mainEq]
        dsimp only
        rw [dif_neg inside]
        exact ⟨_, rfl⟩
  | exited => exact absurd (Or.inl mainEq) running
  | failed => exact absurd (Or.inr mainEq) running

end Counting

/-- The steps that are left. -/
def State.rank (state : State numThreads) : Nat :=
  state.main.rank numThreads + ∑ thread, (state.worker thread).rank

/-- A thread that comes closer to its end brings the whole closer. -/
theorem sum_rank_set_lt {worker : Worker} (lower : worker.rank < (state.worker thread).rank) :
    ∑ other, ((state.set thread worker).worker other).rank <
      ∑ other, (state.worker other).rank := by
  apply Finset.sum_lt_sum
  · intro other _
    by_cases same : other = thread
    · subst same
      simpa using Nat.le_of_lt lower
    · simp [same]
  · exact ⟨thread, Finset.mem_univ thread, by simpa using lower⟩

theorem Moves.rank_lt (moves : Moves program thread state after) : after.rank < state.rank := by
  have lower {worker : Worker} (closer : worker.rank < (state.worker thread).rank) :=
    Nat.add_lt_add_left (sum_rank_set_lt closer) (state.main.rank numThreads)
  cases moves with
  | enter workerEq _ => exact lower (by rw [workerEq]; decide)
  | skip _ workerEq _ => exact lower (by rw [workerEq]; decide)
  | load workerEq => exact lower (by rw [workerEq]; exact Nat.lt_succ_self 4)
  | store value workerEq => exact lower (by rw [workerEq]; exact Nat.lt_succ_self 3)
  | reload workerEq => exact lower (by rw [workerEq]; exact Nat.lt_succ_self 2)
  | print value workerEq => exact lower (by rw [workerEq]; exact Nat.lt_succ_self 1)
  | unlock workerEq => exact lower (by rw [workerEq]; exact Nat.lt_succ_self 0)

theorem MainMoves.rank_lt (counting : Counting program state) (moves : MainMoves state after) :
    after.rank < state.rank := by
  have lower {main : Main} (closer : main.rank numThreads < state.main.rank numThreads) :=
    Nat.add_lt_add_right closer (∑ thread, (state.worker thread).rank)
  cases moves with
  | create i inside mainEq =>
      have absent := counting.managed.creates ⟨i, inside⟩ (by rw [mainEq]; exact Nat.le_refl i)
      have closer : Worker.entry.rank < (state.worker ⟨i, inside⟩).rank := by
        rw [absent]
        decide
      apply Nat.add_lt_add_of_le_of_lt _ (sum_rank_set_lt closer)
      rw [mainEq]
      simp only [Main.rank]
      omega
  | fail i mainEq => exact lower (by rw [mainEq]; exact Nat.succ_pos _)
  | created i all mainEq =>
      apply lower
      rw [mainEq]
      simp only [Main.rank]
      omega
  | join i inside mainEq ended =>
      apply lower
      rw [mainEq]
      simp only [Main.rank]
      omega
  | exit i all mainEq => exact lower (by rw [mainEq]; exact Nat.succ_pos _)

/-- `main` leaves in every run. -/
theorem Counting.ends (guarded : program ≠ .lock false) (counting : Counting program state) :
    Inevitably (step program) State.HasLeft state := by
  have descends : Descends (step program) (fun state : State numThreads => Counting program state)
      State.HasLeft State.rank := by
    constructor
    · intro state counting running
      exact counting.enabled running
    · intro state action after counting _ stepped
      exact counting.next guarded stepped
    · intro state action after counting _ stepped
      rcases step_cases guarded stepped with moves | ⟨thread, moves⟩
      · exact moves.rank_lt counting
      · exact moves.rank_lt
  exact descends.inevitably counting

/-! ## The two programs -/

theorem workerStep_of_step (stepped : step program state (.worker thread) = some after) :
    workerStep program thread state = some after := by
  unfold step at stepped
  split at stepped
  · cases stepped
  · exact stepped

/-- Leaving without the mutex changes nothing else. -/
theorem Moves.skip_of_skipped (moves : Moves program thread state after)
    (skipped : after.worker thread = .skipped) :
    state.mutex ≠ none ∧ after = state.set thread .skipped := by
  cases moves with
  | skip _ _ held => exact ⟨held, rfl⟩
  | _ => simp at skipped

/-- A thread that has left without the mutex stays where it is. -/
theorem skipped_stays (guarded : program ≠ .lock false) {later : State numThreads}
    (counting : Counting program state) (skipped : state.worker thread = .skipped)
    (reachable : Reachable (step program) state later) : later.worker thread = .skipped := by
  suffices both : Counting program later ∧ later.worker thread = .skipped from both.2
  apply @Reachable.invariant _ _ _ (fun state => Counting program state ∧
    state.worker thread = .skipped) _ _ reachable ⟨counting, skipped⟩
  rintro state action after ⟨counting, skipped⟩ stepped
  refine ⟨counting.next guarded stepped, ?_⟩
  rcases step_cases guarded stepped with moves | ⟨other, moves⟩
  · cases moves with
    | create i inside mainEq =>
        have absent := counting.managed.creates ⟨i, inside⟩ (by rw [mainEq]; exact Nat.le_refl i)
        have apart : thread ≠ ⟨i, inside⟩ := by
          rintro rfl
          rw [skipped] at absent
          cases absent
        simpa [apart] using skipped
    | fail i mainEq => exact skipped
    | created i all mainEq => exact skipped
    | join i inside mainEq ended => exact skipped
    | exit i all mainEq => exact skipped
  · have running := moves.running.2
    have apart : thread ≠ other := by
      rintro rfl
      rw [skipped] at running
      cases running
    cases moves <;> simpa [apart] using skipped

/-- What the threads of a program do to the counter, over all runs: `succeeded` is what
the program says about the number of threads that get the mutex. -/
structure Counts (program : Program) (numThreads : Nat) (succeeded : Nat → Prop) : Prop where
  exclusive : ∀ state : State numThreads, Reachable (step program) (initial numThreads) state →
    ∀ first second, (state.worker first).inSection = true →
      (state.worker second).inSection = true → first = second
  ascending : ∀ state : State numThreads, Reachable (step program) (initial numThreads) state →
    state.printed.map Prod.snd = List.range' 1 state.printed.length ∧
      state.sharedVariable ≤ numThreads
  total : ∀ state : State numThreads, Reachable (step program) (initial numThreads) state →
    state.main = .exited →
      state.printed.map Prod.snd = List.range' 1 state.locked ∧
        state.sharedVariable = state.locked ∧ succeeded state.locked
  ends : ∀ state : State numThreads, Reachable (step program) (initial numThreads) state →
    Inevitably (step program) State.HasLeft state
  skips : ∀ (state after : State numThreads) (thread : Fin numThreads),
    Reachable (step program) (initial numThreads) state →
      step program state (.worker thread) = some after → after.worker thread = .skipped →
        state.mutex ≠ none ∧ after = state.set thread .skipped
  silent : ∀ (state later : State numThreads) (thread : Fin numThreads),
    Reachable (step program) (initial numThreads) state → state.worker thread = .skipped →
      Reachable (step program) state later →
        later.worker thread = .skipped ∧ step program later (.worker thread) = none

/-- A program that uses the mutex counts right. -/
theorem counts_of_guarded (guarded : program ≠ .lock false) {succeeded : Nat → Prop}
    (total : ∀ state : State numThreads, Counting program state → state.main = .exited →
      succeeded state.locked) : Counts program numThreads succeeded := by
  constructor
  · intro state reachable first second
    exact (Counting.of_reachable guarded reachable).guarded.exclusive.unique
  · intro state reachable
    have counting := Counting.of_reachable guarded reachable
    exact ⟨counting.ledger.values, counting.sharedVariable_le⟩
  · intro state reachable exited
    have counting := Counting.of_reachable guarded reachable
    have lines := counting.lines_eq exited
    refine ⟨?_, ?_, total state counting exited⟩
    · rw [counting.ledger.values, lines]
    · rw [counting.guarded.free (counting.free exited), lines]
  · intro state reachable
    exact (Counting.of_reachable guarded reachable).ends guarded
  · intro state after thread _ stepped skipped
    exact (workerStep_moves guarded (workerStep_of_step stepped)).skip_of_skipped skipped
  · intro state later thread reachable skipped more
    have counting := Counting.of_reachable guarded reachable
    have stays := skipped_stays guarded counting skipped more
    refine ⟨stays, Option.eq_none_iff_forall_ne_some.mpr fun after stepped => ?_⟩
    have running := (workerStep_moves guarded (workerStep_of_step stepped)).running.2
    rw [stays] at running
    cases running

/-- Under `pthread_mutex_lock` all threads count; under `pthread_mutex_trylock` those
whose attempt succeeds do, and there is one. -/
theorem counts (numThreads : Nat) :
    Counts (.lock true) numThreads (fun locked => locked = numThreads) ∧
      Counts .trylock numThreads fun locked => 1 ≤ numThreads → 1 ≤ locked := by
  constructor
  · apply counts_of_guarded (by decide)
    intro state counting exited
    exact counting.locked_eq exited rfl
  · apply counts_of_guarded (by decide)
    intro state counting exited
    exact counting.locked_pos exited

end CExamples.PthreadMutex
