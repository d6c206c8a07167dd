import CExamples.Transition.Core
import Mathlib.Logic.Function.Basic

/-!
# Threads that are joined

`pthread/pthread_create-pthread_join/main.c`, `pthread/pthread_exit/main.c` and
`pthread/pthread_self/main.c`.  `main` creates its threads and joins them in the same
order; each thread prints its lines and ends.  The threads of `pthread_exit` return a
number in a block that `main` prints and releases.

Only the first program looks at what `pthread_create` returns.  Where the others create no
thread, they join an indeterminate `pthread_t`, which is undefined.  A process moves at its
calls; the calls of `sleep` are left out, as they only let the other threads run.
-/

namespace CExamples.Pthread

open CExamples.Transition

inductive Program
  /-- `pthread_create-pthread_join` -/
  | create
  /-- `pthread_exit` -/
  | exit
  /-- `pthread_self` -/
  | self
  deriving DecidableEq, Repr

/-- A line of the output; threads are counted from 0. -/
inductive Line
  /-- `Thread: %d` -/
  | number (i : Nat)
  /-- `Thread %d is executing.` -/
  | executing (threadId : Nat)
  /-- `Thread %d is done.` -/
  | done (threadId : Nat)
  /-- `Thread ID: %lu` -/
  | threadId (thread : Nat)
  /-- a line of `main` in front of the joins -/
  | early (text : String)
  /-- `Thread %d returned: %d` -/
  | returned (i : Nat) (result : Nat)
  /-- a line of `main` behind the joins -/
  | late (text : String)
  deriving DecidableEq, Repr

/-- `NUMBERS_LEN` -/
def numbersLen : Nat :=
  5

namespace Program

/-- How many threads there are. -/
def numThreads : Program → Nat
  | create => 1
  | exit => 3
  | self => 3

/-- What a thread prints. -/
def script : Program → (thread : Nat) → List Line
  | create, _ => (List.range numbersLen).map fun i => .number (i + 1)
  | exit, thread => [.executing (thread + 1), .done (thread + 1)]
  | self, thread => [.threadId thread]

/-- What `main` prints before it joins. -/
def early : Program → List Line
  | create =>
      [.early "Main is working", .early "Main is still working",
        .early "Main is done working, waiting for the thread to finish"]
  | exit => []
  | self => []

/-- What `main` prints in the end. -/
def late : Program → List Line
  | create => [.late "Thread execution completed."]
  | exit => [.late "Main thread is done."]
  | self => [.late "Main thread is done."]

/-- Whether `main` looks at the result of `pthread_create`. -/
def checks : Program → Bool
  | create => true
  | _ => false

/-- Whether a thread returns a block. -/
def allocates : Program → Bool
  | exit => true
  | _ => false

end Program

/-- Where `main` is. -/
inductive Main
  /-- at the head of the first loop -/
  | create (i : Nat)
  /-- in front of the lines `left` and of the joins -/
  | early (left : List Line)
  /-- at the head of the second loop -/
  | join (i : Nat)
  /-- in front of the `printf` of the result in a block -/
  | report (i block : Nat)
  /-- in front of its `free` -/
  | release (i block : Nat)
  /-- in front of the lines `left` and of the end -/
  | late (left : List Line)
  | returned (status : Nat)
  /-- ended by `exit(EXIT_FAILURE)` in a thread -/
  | killed
  /-- behind a join of no thread -/
  | undefined
  deriving DecidableEq, Repr

/-- Where a thread is. -/
inductive Worker
  /-- not created -/
  | absent
  /-- in front of the lines `left` and of its end -/
  | prints (left : List Line)
  /-- ended, with the block that it returns -/
  | exited (block : Option Nat)
  deriving DecidableEq, Repr

/-- A block with an `int`, and how often it was released. -/
structure Result where
  value : Nat
  releases : Nat
  deriving DecidableEq, Repr

/-- The process: its output, each line behind the thread that printed it, its blocks and
its threads. -/
structure State (numThreads : Nat) where
  printed : List (Option (Fin numThreads) × Line)
  results : List Result
  main : Main
  worker : Fin numThreads → Worker

variable {numThreads : Nat}

/-- The state in which `main` enters its first loop. -/
def initial (numThreads : Nat) : State numThreads where
  printed := []
  results := []
  main := .create 0
  worker := fun _ => .absent

namespace State

/-- `thread` goes on as `worker`. -/
def set (state : State numThreads) (thread : Fin numThreads) (worker : Worker) :
    State numThreads :=
  { state with worker := Function.update state.worker thread worker }

/-- A line is printed, by a thread or by `main`. -/
def print (state : State numThreads) (thread : Option (Fin numThreads)) (line : Line) :
    State numThreads :=
  { state with printed := state.printed ++ [(thread, line)] }

/-- `free(result)` -/
def free (state : State numThreads) (block : Nat) : State numThreads :=
  { state with
    results := state.results.modify block fun result =>
      { result with releases := result.releases + 1 } }

end State

/-- `pthread_join` of a thread, when it returns. -/
def join (i : Nat) : Worker → Option Main
  | .absent => some .undefined
  | .prints _ => none
  | .exited none => some (.join (i + 1))
  | .exited (some block) => some (.report i block)

/-- A step of `main`. -/
def mainStep (program : Program) (state : State numThreads) : Option (State numThreads) :=
  match state.main with
  | .create i =>
      if inside : i < numThreads then
        some { state.set ⟨i, inside⟩ (.prints (program.script i)) with main := .create (i + 1) }
      else some { state with main := .early program.early }
  | .early (line :: left) => some { state.print none line with main := .early left }
  | .early [] => some { state with main := .join 0 }
  | .join i =>
      if inside : i < numThreads then
        (join i (state.worker ⟨i, inside⟩)).map fun main => { state with main := main }
      else some { state with main := .late program.late }
  | .report i block =>
      (state.results[block]?).map fun result =>
        { state.print none (.returned (i + 1) result.value) with main := .release i block }
  | .release i block => some { state.free block with main := .join (i + 1) }
  | .late (line :: left) => some { state.print none line with main := .late left }
  | .late [] => some { state with main := .returned 0 }
  | .returned _ | .killed | .undefined => none

/-- `pthread_create` fails. -/
def createFails (program : Program) (state : State numThreads) : Option (State numThreads) :=
  match state.main with
  | .create i =>
      if i < numThreads then
        some { state with main := if program.checks then .returned 1 else .create (i + 1) }
      else none
  | _ => none

/-- A step of a thread; `malloc` succeeds. -/
def workerStep (program : Program) (thread : Fin numThreads) (state : State numThreads) :
    Option (State numThreads) :=
  match state.worker thread with
  | .prints (line :: left) => some ((state.print (some thread) line).set thread (.prints left))
  | .prints [] =>
      if program.allocates then
        some { state.set thread (.exited (some state.results.length)) with
          results := state.results ++ [{ value := (thread + 1) * 2, releases := 0 }] }
      else some (state.set thread (.exited none))
  | .absent | .exited _ => none

/-- `malloc` fails in a thread, which ends the process. -/
def mallocFails (program : Program) (thread : Fin numThreads) (state : State numThreads) :
    Option (State numThreads) :=
  match state.worker thread with
  | .prints [] => if program.allocates then some { state with main := .killed } else none
  | _ => none

/-- The process has ended. -/
def Main.ended : Main → Bool
  | .returned _ | .killed | .undefined => true
  | _ => false

/-- Who moves, and whether its call fails. -/
inductive Action (numThreads : Nat)
  | main
  | createFails
  | worker (thread : Fin numThreads)
  | mallocFails (thread : Fin numThreads)
  deriving DecidableEq, Repr

/-- The call does what it is there for. -/
def Action.succeeds : Action numThreads → Bool
  | .main | .worker _ => true
  | .createFails | .mallocFails _ => false

/-- A step of the process. -/
def step (program : Program) : Step (State numThreads) (Action numThreads) :=
  fun state action =>
    if state.main.ended then none
    else
      match action with
      | .main => mainStep program state
      | .createFails => createFails program state
      | .worker thread => workerStep program thread state
      | .mallocFails thread => mallocFails program thread state

/-! ## What a step does -/

/-- `main` goes on without an effect. -/
inductive Turns (program : Program) (worker : Fin numThreads → Worker) : Main → Main → Prop
  | created {i : Nat} (outside : numThreads ≤ i) :
      Turns program worker (.create i) (.early program.early)
  | toJoins : Turns program worker (.early []) (.join 0)
  | joins {i : Nat} (inside : i < numThreads) (ended : worker ⟨i, inside⟩ = .exited none) :
      Turns program worker (.join i) (.join (i + 1))
  | receives {i block : Nat} (inside : i < numThreads)
      (ended : worker ⟨i, inside⟩ = .exited (some block)) :
      Turns program worker (.join i) (.report i block)
  | joined {i : Nat} (outside : numThreads ≤ i) :
      Turns program worker (.join i) (.late program.late)
  | returns : Turns program worker (.late []) (.returned 0)

/-- `main` prints a line. -/
inductive Says (results : List Result) : Main → Line → Main → Prop
  | early {line : Line} {left : List Line} : Says results (.early (line :: left)) line (.early left)
  | reports {i block : Nat} {result : Result} (found : results[block]? = some result) :
      Says results (.report i block) (.returned (i + 1) result.value) (.release i block)
  | late {line : Line} {left : List Line} : Says results (.late (line :: left)) line (.late left)

/-- The steps in which the process does not end before `main` returns 0; if it is `checked`,
`main` leaves out no thread. -/
inductive Moves (program : Program) (checked : Bool) (state : State numThreads) :
    State numThreads → Prop
  | creates {i : Nat} (mainEq : state.main = .create i) (inside : i < numThreads) :
      Moves program checked state
        { state.set ⟨i, inside⟩ (.prints (program.script i)) with main := .create (i + 1) }
  | skips {i : Nat} (mainEq : state.main = .create i) (inside : i < numThreads)
      (unchecked : checked = false) :
      Moves program checked state { state with main := .create (i + 1) }
  | turns {main : Main} (turns : Turns program state.worker state.main main) :
      Moves program checked state { state with main := main }
  | writes {line : Line} {main : Main} (written : Says state.results state.main line main) :
      Moves program checked state { state.print none line with main := main }
  | frees {i block : Nat} (mainEq : state.main = .release i block) :
      Moves program checked state { state.free block with main := .join (i + 1) }
  | prints {thread : Fin numThreads} {line : Line} {left : List Line}
      (workerEq : state.worker thread = .prints (line :: left)) :
      Moves program checked state ((state.print (some thread) line).set thread (.prints left))
  | exits {thread : Fin numThreads} (workerEq : state.worker thread = .prints [])
      (bare : program.allocates = false) :
      Moves program checked state (state.set thread (.exited none))
  | allocates {thread : Fin numThreads} (workerEq : state.worker thread = .prints [])
      (allocates : program.allocates = true) :
      Moves program checked state
        { state.set thread (.exited (some state.results.length)) with
          results := state.results ++ [{ value := (thread + 1) * 2, releases := 0 }] }

/-- The steps that end the process before. -/
inductive Stops (program : Program) (state : State numThreads) : Main → Prop
  | refused (checked : program.checks = true) : Stops program state (.returned 1)
  | killed : Stops program state .killed
  | undefined {i : Nat} (mainEq : state.main = .join i) (inside : i < numThreads)
      (absent : state.worker ⟨i, inside⟩ = .absent) : Stops program state .undefined

variable {program : Program} {checked : Bool} {state after : State numThreads}

theorem mainStep_moves (stepped : mainStep program state = some after) :
    Moves program checked state after ∨
      ∃ (i : Nat) (inside : i < numThreads), state.main = .join i ∧
        state.worker ⟨i, inside⟩ = .absent ∧ after = { state with main := .undefined } := by
  unfold mainStep at stepped
  split at stepped
  · rename_i i mainEq
    split at stepped
    · rename_i inside
      cases stepped
      exact Or.inl (.creates mainEq inside)
    · rename_i outside
      cases stepped
      exact Or.inl (.turns (mainEq ▸ .created (Nat.le_of_not_lt outside)))
  · rename_i line left mainEq
    cases stepped
    exact Or.inl (.writes (mainEq ▸ .early))
  · rename_i mainEq
    cases stepped
    exact Or.inl (.turns (mainEq ▸ .toJoins))
  · rename_i i mainEq
    split at stepped
    · rename_i inside
      rcases Option.map_eq_some_iff.mp stepped with ⟨main, joined, rfl⟩
      cases workerEq : state.worker ⟨i, inside⟩ with
      | absent =>
          rw [workerEq, join] at joined
          cases joined
          exact Or.inr ⟨i, inside, mainEq, workerEq, rfl⟩
      | prints left =>
          rw [workerEq, join] at joined
          cases joined
      | exited block =>
          rw [workerEq] at joined
          cases block with
          | none =>
              cases joined
              exact Or.inl (.turns (mainEq ▸ .joins inside workerEq))
          | some block =>
              cases joined
              exact Or.inl (.turns (mainEq ▸ .receives inside workerEq))
    · rename_i outside
      cases stepped
      exact Or.inl (.turns (mainEq ▸ .joined (Nat.le_of_not_lt outside)))
  · rename_i i block mainEq
    rcases Option.map_eq_some_iff.mp stepped with ⟨result, found, rfl⟩
    exact Or.inl (.writes (mainEq ▸ .reports found))
  · rename_i i block mainEq
    cases stepped
    exact Or.inl (.frees mainEq)
  · rename_i line left mainEq
    cases stepped
    exact Or.inl (.writes (mainEq ▸ .late))
  · rename_i mainEq
    cases stepped
    exact Or.inl (.turns (mainEq ▸ .returns))
  · cases stepped
  · cases stepped
  · cases stepped

theorem createFails_moves (stepped : createFails program state = some after) :
    Moves program program.checks state after ∨ ∃ main, Stops program state main ∧
      after = { state with main := main } := by
  unfold createFails at stepped
  split at stepped
  · rename_i i mainEq
    split at stepped
    · rename_i inside
      cases stepped
      cases checks : program.checks with
      | true => exact Or.inr ⟨_, .refused checks, rfl⟩
      | false => exact Or.inl (.skips mainEq inside rfl)
    · cases stepped
  · cases stepped

theorem workerStep_moves {thread : Fin numThreads}
    (stepped : workerStep program thread state = some after) :
    Moves program checked state after := by
  unfold workerStep at stepped
  split at stepped
  · rename_i line left workerEq
    cases stepped
    exact .prints workerEq
  · rename_i workerEq
    split at stepped
    · rename_i allocates
      cases stepped
      exact .allocates workerEq allocates
    · rename_i bare
      cases stepped
      exact .exits workerEq (Bool.eq_false_iff.mpr bare)
  · cases stepped
  · cases stepped

theorem mallocFails_stops {thread : Fin numThreads}
    (stepped : mallocFails program thread state = some after) :
    ∃ main, Stops program state main ∧ after = { state with main := main } := by
  unfold mallocFails at stepped
  split at stepped
  · split at stepped
    · cases stepped
      exact ⟨_, .killed, rfl⟩
    · cases stepped
  · cases stepped

theorem step_moves {action : Action numThreads} (stepped : step program state action = some after) :
    state.main.ended = false ∧ (Moves program program.checks state after ∨
      ∃ main, Stops program state main ∧ after = { state with main := main }) := by
  unfold step at stepped
  split at stepped
  · cases stepped
  · rename_i running
    refine ⟨Bool.eq_false_iff.mpr running, ?_⟩
    cases action with
    | main =>
        refine (mainStep_moves stepped).imp_right ?_
        rintro ⟨i, inside, mainEq, absent, rfl⟩
        exact ⟨_, .undefined mainEq inside absent, rfl⟩
    | createFails => exact createFails_moves stepped
    | worker thread => exact Or.inl (workerStep_moves stepped)
    | mallocFails thread => exact Or.inr (mallocFails_stops stepped)

end CExamples.Pthread
