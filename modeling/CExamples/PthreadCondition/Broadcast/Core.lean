import CExamples.Transition.Core
import CExamples.Transition.Monitor
import Mathlib.Logic.Function.Basic

/-!
# A value that is broadcast

`pthread-condition/pthread_cond_broadcast/main.c`.  `main` creates the threads,
counts `shared_data` up to `ITERATIONS` and broadcasts after each update, and then
joins the threads.  Each thread waits until the count is complete.

`NUM_THREADS` and `ITERATIONS` are parameters.  A thread moves when it takes the
mutex and when it runs its critical section up to the unlock or the wait.  A waiting
thread may also wake up without a broadcast.
-/

namespace CExamples.PthreadCondition.Broadcast

open CExamples.Transition

/-- `main` or one of the threads. -/
inductive Thread (numThreads : Nat)
  | main
  | worker (thread : Fin numThreads)
  deriving DecidableEq, Repr

/-- Where `main` is. -/
inductive Main
  /-- at the head of the first loop -/
  | create (t : Nat)
  /-- at the head of the second loop -/
  | iterate (i : Nat)
  /-- in `pthread_mutex_lock` -/
  | lock (i : Nat)
  /-- holding the mutex -/
  | critical (i : Nat)
  /-- at the head of the third loop -/
  | join (t : Nat)
  | exited
  deriving DecidableEq, Repr

/-- Where a thread is. -/
inductive Worker
  /-- not created yet -/
  | absent
  /-- in the loop of `thread_function` -/
  | running (position : Position)
  | exited
  deriving DecidableEq, Repr

/-- A wakeup. -/
def Worker.wake : Worker → Worker
  | .running position => .running position.wake
  | worker => worker

/-- The mutex, `shared_data` and the threads. -/
structure State (numThreads : Nat) where
  mutex : Option (Thread numThreads)
  sharedData : Nat
  main : Main
  worker : Fin numThreads → Worker

variable {numThreads : Nat}

/-- The state in which `main` enters its first loop. -/
def initial (numThreads : Nat) : State numThreads where
  mutex := none
  sharedData := 0
  main := .create 0
  worker := fun _ => .absent

/-- `thread` goes on as `worker`. -/
def State.set (state : State numThreads) (thread : Fin numThreads) (worker : Worker) :
    State numThreads :=
  { state with worker := Function.update state.worker thread worker }

/-- A step of `main`. -/
def mainStep (iterations : Nat) (state : State numThreads) : Option (State numThreads) :=
  match state.main with
  | .create t =>
      if inside : t < numThreads then
        some { state.set ⟨t, inside⟩ (.running .lock) with main := .create (t + 1) }
      else some { state with main := .iterate 0 }
  | .iterate i =>
      if i < iterations then some { state with main := .lock i }
      else some { state with main := .join 0 }
  | .lock i =>
      (acquire state.mutex .main).map fun mutex =>
        { state with mutex := mutex, main := .critical i }
  | .critical i =>
      some { state with
        mutex := none
        sharedData := i + 1
        main := .iterate (i + 1)
        worker := fun thread => (state.worker thread).wake }
  | .join t =>
      if inside : t < numThreads then
        if state.worker ⟨t, inside⟩ = .exited then some { state with main := .join (t + 1) }
        else none
      else some { state with main := .exited }
  | .exited => none

/-- A step of `thread_function`. -/
def workerStep (iterations : Nat) (thread : Fin numThreads) (state : State numThreads) :
    Option (State numThreads) :=
  match state.worker thread with
  | .absent => none
  | .running .critical =>
      if state.sharedData < iterations then
        some { state.set thread (.running .waiting) with mutex := none }
      else some { state.set thread .exited with mutex := none }
  | .running .waiting => none
  | .running _ =>
      (acquire state.mutex (.worker thread)).map fun mutex =>
        { state.set thread (.running .critical) with mutex := mutex }
  | .exited => none

/-- A thread takes its next step or wakes up without a broadcast. -/
inductive Action (numThreads : Nat)
  | move (thread : Thread numThreads)
  | wake (thread : Fin numThreads)
  deriving DecidableEq, Repr

/-- A step of one thread. -/
def step (iterations : Nat) : Step (State numThreads) (Action numThreads) :=
  fun state action =>
    match action with
    | .move .main => mainStep iterations state
    | .move (.worker thread) => workerStep iterations thread state
    | .wake thread =>
        if state.worker thread = .running .waiting then
          some (state.set thread (state.worker thread).wake)
        else none

/-! ## What a step does -/

variable {iterations : Nat} {state after : State numThreads} {thread : Fin numThreads}

@[simp]
theorem State.worker_set_self (worker : Worker) :
    (state.set thread worker).worker thread = worker :=
  Function.update_self ..

@[simp]
theorem State.worker_set_of_ne {other : Fin numThreads} (apart : other ≠ thread)
    (worker : Worker) : (state.set thread worker).worker other = state.worker other :=
  Function.update_of_ne apart ..

@[simp]
theorem State.main_set (worker : Worker) : (state.set thread worker).main = state.main :=
  rfl

@[simp]
theorem Worker.wake_ne_waiting (worker : Worker) : worker.wake ≠ .running .waiting := by
  cases worker <;> simp [wake]

@[simp]
theorem Worker.wake_eq_critical {worker : Worker} :
    worker.wake = .running .critical ↔ worker = .running .critical := by
  cases worker <;> simp [wake]

@[simp]
theorem Worker.wake_eq_exited {worker : Worker} : worker.wake = .exited ↔ worker = .exited := by
  cases worker <;> simp [wake]

@[simp]
theorem Worker.wake_eq_absent {worker : Worker} : worker.wake = .absent ↔ worker = .absent := by
  cases worker <;> simp [wake]

/-- A step of a thread takes the mutex, starts to wait, or leaves the loop. -/
theorem workerStep_cases (stepped : workerStep iterations thread state = some after) :
    (∃ position, state.worker thread = .running position ∧
        (position = .lock ∨ position = .woken) ∧ state.mutex = none ∧
        after = { state.set thread (.running .critical) with mutex := some (.worker thread) }) ∨
      state.worker thread = .running .critical ∧
        (state.sharedData < iterations ∧
            after = { state.set thread (.running .waiting) with mutex := none } ∨
          iterations ≤ state.sharedData ∧
            after = { state.set thread .exited with mutex := none }) := by
  unfold workerStep at stepped
  split at stepped
  · cases stepped
  · rename_i workerEq
    refine Or.inr ⟨workerEq, ?_⟩
    split at stepped
    · rename_i short
      exact Or.inl ⟨short, (Option.some.inj stepped).symm⟩
    · rename_i complete
      exact Or.inr ⟨Nat.not_lt.mp complete, (Option.some.inj stepped).symm⟩
  · cases stepped
  · rename_i position notCritical notWaiting workerEq
    obtain ⟨mutex, acquired, rfl⟩ := Option.map_eq_some_iff.mp stepped
    obtain ⟨free, rfl⟩ := acquire_eq_some.mp acquired
    refine Or.inl ⟨position, workerEq, ?_, free, rfl⟩
    cases position with
    | lock => exact Or.inl rfl
    | critical => exact absurd rfl notCritical
    | waiting => exact absurd rfl notWaiting
    | woken => exact Or.inr rfl
  · cases stepped

end CExamples.PthreadCondition.Broadcast
