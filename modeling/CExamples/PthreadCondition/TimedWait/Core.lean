import CExamples.Transition.Core
import CExamples.Transition.Monitor

/-!
# A wait with a deadline

`pthread-condition/pthread_cond_timedwait/main.c`, from the creation of the thread
on.  The thread sleeps and then signals the condition once; `main` waits for it
until a deadline and prints what `pthread_cond_timedwait` returned.  There is no
predicate.

The clock advances between any two steps.  The wait ends with 0 when the thread
signals or without a reason, and with `ETIMEDOUT` once the deadline has passed; then
`main` takes the mutex again.  The thread may sleep for any time.
-/

namespace CExamples.PthreadCondition.TimedWait

open CExamples.Transition

inductive Thread
  | main
  | thread
  deriving DecidableEq, Repr

/-- `ETIMEDOUT` -/
def etimedout : Int :=
  110

/-- The lines that `main` prints. -/
inductive Line
  /-- `Condition variable signaled before timeout.` -/
  | signaled
  /-- `Timeout occurred. Condition variable was not signaled.` -/
  | timeout
  /-- `Error while waiting for the condition variable.` -/
  | error
  deriving DecidableEq, Repr

/-- The line that shows the result of the wait. -/
def report (result : Int) : Line :=
  if result = 0 then .signaled else if result = etimedout then .timeout else .error

/-- Where `main` is. -/
inductive Main
  /-- before `clock_gettime` -/
  | clock
  /-- in `pthread_mutex_lock` -/
  | lock
  /-- before `pthread_cond_timedwait`, holding the mutex -/
  | timedwait
  /-- in `pthread_cond_timedwait` -/
  | waiting
  /-- in `pthread_cond_timedwait`, where the wait has ended -/
  | woken (result : Int)
  /-- before `pthread_mutex_unlock` -/
  | returned (result : Int)
  /-- before `printf` -/
  | print (result : Int)
  /-- in `pthread_join` -/
  | join
  | exited
  deriving DecidableEq, Repr

/-- Where the thread is. -/
inductive Worker
  | sleep
  /-- in `pthread_mutex_lock` -/
  | lock
  /-- holding the mutex -/
  | critical
  | exited
  deriving DecidableEq, Repr

/-- The clock, the mutex, the threads, and what was printed.  `signaledAt` is the time
at which the thread executed `pthread_cond_signal`. -/
structure State where
  now : Nat
  deadline : Int
  mutex : Option Thread
  main : Main
  thread : Worker
  signaledAt : Option Nat
  printed : List Line
  deriving DecidableEq, Repr

/-- The state after the thread was created at the time `now`. -/
def initial (now : Nat) : State where
  now := now
  deadline := 0
  mutex := none
  main := .clock
  thread := .sleep
  signaledAt := none
  printed := []

/-- What can happen next. -/
inductive Action
  | main
  | thread
  | tick
  /-- the wait ends because the deadline has passed -/
  | timeout
  /-- the wait ends without a reason -/
  | spurious
  deriving DecidableEq, Repr

/-- A wakeup by the signal. -/
def Main.signal : Main → Main
  | .waiting => .woken 0
  | main => main

/-- A step of `main`. -/
def mainStep (mainSeconds : Int) (state : State) : Option State :=
  match state.main with
  | .clock => some { state with deadline := state.now + mainSeconds, main := .lock }
  | .lock =>
      (acquire state.mutex .main).map fun mutex => { state with mutex := mutex, main := .timedwait }
  | .timedwait => some { state with mutex := none, main := .waiting }
  | .waiting => none
  | .woken result =>
      (acquire state.mutex .main).map fun mutex =>
        { state with mutex := mutex, main := .returned result }
  | .returned result => some { state with mutex := none, main := .print result }
  | .print result => some { state with printed := state.printed ++ [report result], main := .join }
  | .join => if state.thread = .exited then some { state with main := .exited } else none
  | .exited => none

/-- A step of `thread_function`. -/
def threadStep (state : State) : Option State :=
  match state.thread with
  | .sleep => some { state with thread := .lock }
  | .lock =>
      (acquire state.mutex .thread).map fun mutex =>
        { state with mutex := mutex, thread := .critical }
  | .critical =>
      some { state with
        mutex := none
        main := state.main.signal
        thread := .exited
        signaledAt := some state.now }
  | .exited => none

/-- A step of `main`, of the thread, of the clock or of the kernel. -/
def step (mainSeconds : Int) : Step State Action :=
  fun state action =>
    match action with
    | .main => mainStep mainSeconds state
    | .thread => threadStep state
    | .tick => some { state with now := state.now + 1 }
    | .timeout =>
        if state.main = .waiting ∧ state.deadline ≤ state.now then
          some { state with main := .woken etimedout }
        else none
    | .spurious => if state.main = .waiting then some { state with main := .woken 0 } else none

end CExamples.PthreadCondition.TimedWait
