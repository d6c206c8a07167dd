import CExamples.Transition.Core
import CExamples.Transition.Monitor
import Mathlib.Logic.Function.Basic

/-!
# Counting under a mutex

`pthread-mutex/pthread_mutex_lock-pthread_mutex_unlock/main.c` and
`pthread-mutex/pthread_mutex_trylock/main.c`.  `main` creates the threads and joins
them, and each thread adds one to `sharedVariable` and prints it.  The first program
locks the mutex around this only with `-m`; in the second a thread that does not get
the mutex at once leaves.

The increment is a load and a store, and the value that is printed is loaded again.
`NUM_THREADS` is a parameter; it is an `int`, as `sharedVariable` is, which never
exceeds it.
-/

namespace CExamples.PthreadMutex

open CExamples.Transition

/-- The two programs. -/
inductive Program
  | lock (useMutex : Bool)
  | trylock
  deriving DecidableEq, Repr

/-- Where `main` is. -/
inductive Main
  /-- at the head of the first loop -/
  | create (i : Nat)
  /-- at the head of the second loop -/
  | join (i : Nat)
  | exited
  /-- left with `EXIT_FAILURE`, which ends all threads -/
  | failed
  deriving DecidableEq, Repr

/-- Where a thread is in `thread_function`. -/
inductive Worker
  /-- not created yet -/
  | absent
  /-- before the mutex -/
  | entry
  /-- before the load of the increment -/
  | load
  /-- before its store -/
  | store (value : Nat)
  /-- before the load of the value to print -/
  | reload
  /-- in `printf` -/
  | print (value : Nat)
  /-- before the unlock -/
  | unlock
  /-- in `pthread_exit` behind the section -/
  | exited
  /-- in `pthread_exit` behind the failed `pthread_mutex_trylock` -/
  | skipped
  deriving DecidableEq, Repr

/-- The mutex, `sharedVariable`, the lines that were printed and the threads. -/
structure State (numThreads : Nat) where
  mutex : Option (Fin numThreads)
  sharedVariable : Nat
  printed : List (Fin numThreads × Nat)
  main : Main
  worker : Fin numThreads → Worker

variable {numThreads : Nat}

/-- The state in which `main` enters its first loop. -/
def initial (numThreads : Nat) : State numThreads where
  mutex := none
  sharedVariable := 0
  printed := []
  main := .create 0
  worker := fun _ => .absent

/-- `thread` goes on as `worker`. -/
def State.set (state : State numThreads) (thread : Fin numThreads) (worker : Worker) :
    State numThreads :=
  { state with worker := Function.update state.worker thread worker }

/-- The thread has ended. -/
def Worker.ended : Worker → Bool
  | .exited => true
  | .skipped => true
  | _ => false

/-- A step of `main`. -/
def mainStep (state : State numThreads) : Option (State numThreads) :=
  match state.main with
  | .create i =>
      if inside : i < numThreads then
        some { state.set ⟨i, inside⟩ .entry with main := .create (i + 1) }
      else some { state with main := .join 0 }
  | .join i =>
      if inside : i < numThreads then
        if (state.worker ⟨i, inside⟩).ended then some { state with main := .join (i + 1) } else none
      else some { state with main := .exited }
  | .exited => none
  | .failed => none

/-- `pthread_create` fails. -/
def createFails (state : State numThreads) : Option (State numThreads) :=
  match state.main with
  | .create i => if i < numThreads then some { state with main := .failed } else none
  | _ => none

/-- What a thread does about the mutex before the section. -/
def enter (program : Program) (thread : Fin numThreads) (state : State numThreads) :
    Option (State numThreads) :=
  match program with
  | .lock false => some (state.set thread .load)
  | .lock true =>
      (acquire state.mutex thread).map fun mutex => { state.set thread .load with mutex := mutex }
  | .trylock =>
      match acquire state.mutex thread with
      | some mutex => some { state.set thread .load with mutex := mutex }
      | none => some (state.set thread .skipped)

/-- What a thread does about the mutex behind the section. -/
def leave (program : Program) (thread : Fin numThreads) (state : State numThreads) :
    State numThreads :=
  if program = .lock false then state.set thread .exited
  else { state.set thread .exited with mutex := none }

/-- A step of `thread_function`. -/
def workerStep (program : Program) (thread : Fin numThreads) (state : State numThreads) :
    Option (State numThreads) :=
  match state.worker thread with
  | .absent => none
  | .entry => enter program thread state
  | .load => some (state.set thread (.store state.sharedVariable))
  | .store value => some { state.set thread .reload with sharedVariable := value + 1 }
  | .reload => some (state.set thread (.print state.sharedVariable))
  | .print value =>
      some { state.set thread .unlock with printed := state.printed ++ [(thread, value)] }
  | .unlock => some (leave program thread state)
  | .exited => none
  | .skipped => none

/-- Who moves, and whether `pthread_create` succeeds. -/
inductive Action (numThreads : Nat)
  | main
  | createFails
  | worker (thread : Fin numThreads)
  deriving DecidableEq, Repr

/-- A step of one thread. -/
def step (program : Program) : Step (State numThreads) (Action numThreads) :=
  fun state action =>
    if state.main = .failed then none
    else
      match action with
      | .main => mainStep state
      | .createFails => createFails state
      | .worker thread => workerStep program thread state

/-! ## What a step does -/

section Set

variable {state : State numThreads} {thread other : Fin numThreads}

@[simp]
theorem State.worker_set_self (worker : Worker) :
    (state.set thread worker).worker thread = worker :=
  Function.update_self ..

@[simp]
theorem State.worker_set_of_ne (apart : other ≠ thread) (worker : Worker) :
    (state.set thread worker).worker other = state.worker other :=
  Function.update_of_ne apart ..

@[simp]
theorem State.mutex_set (worker : Worker) : (state.set thread worker).mutex = state.mutex :=
  rfl

@[simp]
theorem State.sharedVariable_set (worker : Worker) :
    (state.set thread worker).sharedVariable = state.sharedVariable :=
  rfl

@[simp]
theorem State.printed_set (worker : Worker) : (state.set thread worker).printed = state.printed :=
  rfl

@[simp]
theorem State.main_set (worker : Worker) : (state.set thread worker).main = state.main :=
  rfl

end Set

variable {program : Program} {state after : State numThreads} {thread : Fin numThreads}

/-- The steps of a thread in a program that uses the mutex. -/
inductive Moves (program : Program) (thread : Fin numThreads) (state : State numThreads) :
    State numThreads → Prop
  | enter (workerEq : state.worker thread = .entry) (free : state.mutex = none) :
      Moves program thread state { state.set thread .load with mutex := some thread }
  | skip (trylock : program = .trylock) (workerEq : state.worker thread = .entry)
      (held : state.mutex ≠ none) : Moves program thread state (state.set thread .skipped)
  | load (workerEq : state.worker thread = .load) :
      Moves program thread state (state.set thread (.store state.sharedVariable))
  | store (value : Nat) (workerEq : state.worker thread = .store value) :
      Moves program thread state
        { state.set thread .reload with sharedVariable := value + 1 }
  | reload (workerEq : state.worker thread = .reload) :
      Moves program thread state (state.set thread (.print state.sharedVariable))
  | print (value : Nat) (workerEq : state.worker thread = .print value) :
      Moves program thread state
        { state.set thread .unlock with printed := state.printed ++ [(thread, value)] }
  | unlock (workerEq : state.worker thread = .unlock) :
      Moves program thread state { state.set thread .exited with mutex := none }

theorem enter_moves (guarded : program ≠ .lock false) (workerEq : state.worker thread = .entry)
    (entered : enter program thread state = some after) : Moves program thread state after := by
  cases program with
  | lock useMutex =>
      cases useMutex with
      | false => exact absurd rfl guarded
      | true =>
          obtain ⟨mutex, acquired, rfl⟩ := Option.map_eq_some_iff.mp entered
          obtain ⟨free, rfl⟩ := acquire_eq_some.mp acquired
          exact .enter workerEq free
  | trylock =>
      unfold enter at entered
      cases held : state.mutex with
      | none =>
          rw [held] at entered
          cases entered
          exact .enter workerEq held
      | some holder =>
          rw [held] at entered
          cases entered
          exact .skip rfl workerEq (by rw [held]; exact Option.some_ne_none holder)

theorem workerStep_moves (guarded : program ≠ .lock false)
    (stepped : workerStep program thread state = some after) :
    Moves program thread state after := by
  unfold workerStep at stepped
  cases workerEq : state.worker thread with
  | absent =>
      rw [workerEq] at stepped
      cases stepped
  | entry =>
      rw [workerEq] at stepped
      exact enter_moves guarded workerEq stepped
  | load =>
      rw [workerEq] at stepped
      cases stepped
      exact .load workerEq
  | store value =>
      rw [workerEq] at stepped
      cases stepped
      exact .store value workerEq
  | reload =>
      rw [workerEq] at stepped
      cases stepped
      exact .reload workerEq
  | print value =>
      rw [workerEq] at stepped
      cases stepped
      exact .print value workerEq
  | unlock =>
      rw [workerEq] at stepped
      cases stepped
      rw [leave, if_neg guarded]
      exact .unlock workerEq
  | exited =>
      rw [workerEq] at stepped
      cases stepped
  | skipped =>
      rw [workerEq] at stepped
      cases stepped

/-- The thread is running. -/
theorem Moves.running (moves : Moves program thread state after) :
    state.worker thread ≠ .absent ∧ (state.worker thread).ended = false := by
  cases moves <;> rename_i workerEq <;> simp [*, Worker.ended]

/-- The steps of `main`. -/
inductive MainMoves (state : State numThreads) : State numThreads → Prop
  | create (i : Nat) (inside : i < numThreads) (mainEq : state.main = .create i) :
      MainMoves state { state.set ⟨i, inside⟩ .entry with main := .create (i + 1) }
  | fail (i : Nat) (mainEq : state.main = .create i) :
      MainMoves state { state with main := .failed }
  | created (i : Nat) (all : numThreads ≤ i) (mainEq : state.main = .create i) :
      MainMoves state { state with main := .join 0 }
  | join (i : Nat) (inside : i < numThreads) (mainEq : state.main = .join i)
      (ended : (state.worker ⟨i, inside⟩).ended = true) :
      MainMoves state { state with main := .join (i + 1) }
  | exit (i : Nat) (all : numThreads ≤ i) (mainEq : state.main = .join i) :
      MainMoves state { state with main := .exited }

theorem mainStep_moves (stepped : mainStep state = some after) : MainMoves state after := by
  unfold mainStep at stepped
  split at stepped
  · rename_i i mainEq
    split at stepped
    · rename_i inside
      cases stepped
      exact .create i inside mainEq
    · rename_i all
      cases stepped
      exact .created i (Nat.not_lt.mp all) mainEq
  · rename_i i mainEq
    split at stepped
    · rename_i inside
      split at stepped
      · rename_i ended
        cases stepped
        exact .join i inside mainEq ended
      · cases stepped
    · rename_i all
      cases stepped
      exact .exit i (Nat.not_lt.mp all) mainEq
  · cases stepped
  · cases stepped

theorem createFails_moves (stepped : createFails state = some after) : MainMoves state after := by
  unfold createFails at stepped
  split at stepped
  · rename_i i mainEq
    split at stepped
    · cases stepped
      exact .fail i mainEq
    · cases stepped
  · cases stepped

/-- A step is one of `main` or one of a thread. -/
theorem step_cases (guarded : program ≠ .lock false) {action : Action numThreads}
    (stepped : step program state action = some after) :
    MainMoves state after ∨ ∃ thread, Moves program thread state after := by
  unfold step at stepped
  split at stepped
  · cases stepped
  · cases action with
    | main => exact Or.inl (mainStep_moves stepped)
    | createFails => exact Or.inl (createFails_moves stepped)
    | worker thread => exact Or.inr ⟨thread, workerStep_moves guarded stepped⟩

end CExamples.PthreadMutex
