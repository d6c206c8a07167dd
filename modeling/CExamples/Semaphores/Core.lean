import CExamples.Transition.Core
import CExamples.Transition.Resources

/-!
# A parent and a child with a named semaphore

`semaphores/sem_post-sem_wait/main.c` and `semaphores/sem_trywait/main.c`.  `main`
creates the semaphore, which must not exist yet, with the value 1 and forks.  The
child waits for the semaphore, works and posts it.  The parent of the first program
waits for it too; that of the second one tries `TRY_COUNT` times and gives up after
the last.  A process that fails unlinks the name of the semaphore and leaves.

A process moves at one of its calls, together with the output that follows it.
`sem_unlink` fails only when the name does not exist, and the posts do not fail.
-/

namespace CExamples.Semaphores

open CExamples.Transition

/-- How the parent gets the semaphore. -/
inductive Program
  | wait
  | trywait
  deriving DecidableEq, Repr

/-- `TRY_COUNT` -/
def tryCount : Nat :=
  5

/-- A line of the output, behind the process that writes it, or an error. -/
inductive Line
  | child (text : String)
  | parent (text : String)
  | perror (text : String)
  deriving DecidableEq, Repr

/-- Where the child is. -/
inductive Child
  /-- not forked yet -/
  | absent
  /-- before its first line -/
  | start
  /-- in `sem_wait` -/
  | wait
  /-- in `sleep` -/
  | work
  /-- before `sem_post` -/
  | post
  | exited (success : Bool)
  deriving DecidableEq, Repr

/-- Where the parent is. -/
inductive Parent
  /-- before `sem_open` -/
  | create
  /-- before `fork` -/
  | fork
  /-- before its first line -/
  | start
  /-- in `sem_wait` -/
  | wait
  /-- at the head of the loop around `sem_trywait` -/
  | attempt (tryCount : Nat)
  /-- before `sem_post` -/
  | post
  /-- in `wait` -/
  | join
  /-- before `sem_unlink` -/
  | unlink
  | exited (success : Bool)
  deriving DecidableEq, Repr

/-- The value of the semaphore once it exists, whether its name does, and the two
processes with what they have written. -/
structure State where
  semaphore : Option Nat
  linked : Bool
  child : Child
  parent : Parent
  output : List Line
  deriving DecidableEq, Repr

/-- The state in which `main` starts; a run that was killed leaves the name behind. -/
def initial (linked : Bool) : State where
  semaphore := none
  linked := linked
  child := .absent
  parent := .create
  output := []

/-- Who moves, and whether its call fails. -/
inductive Action
  | child
  | childFails
  | parent
  | parentFails
  deriving DecidableEq, Repr

/-- The call does what it is there for. -/
def Action.succeeds : Action → Bool
  | .child => true
  | .parent => true
  | _ => false

namespace State

/-- A line is written. -/
def write (state : State) (line : Line) : State :=
  { state with output := state.output ++ [line] }

/-- `sem_wait`, where the semaphore is not 0. -/
def take (state : State) : Option State :=
  (state.semaphore.bind semWait).map fun value => { state with semaphore := some value }

/-- `sem_post` -/
def post (state : State) : State :=
  { state with semaphore := state.semaphore.map (· + 1) }

/-- The error of a call of the child, `sem_unlink` and the end of the process. -/
def childFailed (state : State) (text : String) : State :=
  { state.write (.perror text) with linked := false, child := .exited false }

/-- The error of a call of the parent, `sem_unlink` and the end of the process. -/
def parentFailed (state : State) (text : String) : State :=
  { state.write (.perror text) with linked := false, parent := .exited false }

end State

/-! ## The child -/

/-- The error that the child reports. -/
def Program.childError : Program → String
  | .wait => "sem_wait failed"
  | .trywait => "sem_trywait failed"

/-- A step of the child. -/
def childStep (state : State) : Option State :=
  match state.child with
  | .absent => none
  | .start => some { state.write (.child "Simulating some work...") with child := .wait }
  | .wait => state.take.map fun state => { state with child := .work }
  | .work => some { state.write (.child "Done work.") with child := .post }
  | .post => some { state.post with child := .exited true }
  | .exited _ => none

/-- `sem_wait` fails in the child. -/
def childFails (program : Program) (state : State) : Option State :=
  match state.child with
  | .wait => some (state.childFailed program.childError)
  | _ => none

/-! ## The parent -/

/-- Where the parent goes after its first line. -/
def Program.enter : Program → Parent
  | .wait => .wait
  | .trywait => .attempt tryCount

/-- The line behind the call that gets the semaphore. -/
def Program.got : Program → String
  | .wait => "Done sem_wait"
  | .trywait => "Done waiting"

/-- The line behind the `sem_post` of the parent, if there is one. -/
def Program.posted : Program → Option String
  | .wait => none
  | .trywait => some "Child signaled. Continue processing..."

/-- The line behind `wait`. -/
def Program.joined : Program → String
  | .wait => "Done waiting."
  | .trywait => "Child completed."

/-- The child has ended. -/
def Child.ended : Child → Bool
  | .exited _ => true
  | _ => false

/-- `sem_trywait` returns -1. -/
def retry (state : State) (count : Nat) : State :=
  if count = 1 then state.parentFailed "sem_trywait failed"
  else
    { state.write (.parent "Child not ready. Retrying...") with parent := .attempt (count - 1) }

/-- A step of `main` and of the parent. -/
def parentStep (program : Program) (state : State) : Option State :=
  match state.parent with
  | .create =>
      if state.linked then
        some { state.write (.perror "Semaphore creation failed") with parent := .exited false }
      else some { state with semaphore := some 1, linked := true, parent := .fork }
  | .fork => some { state with child := .start, parent := .start }
  | .start =>
      some { state.write (.parent "Waiting for the child to complete...") with
        parent := program.enter }
  | .wait =>
      state.take.map fun state => { state.write (.parent program.got) with parent := .post }
  | .attempt count =>
      if count > 0 then
        match state.take with
        | some state => some { state.write (.parent program.got) with parent := .post }
        | none => some (retry state count)
      else some { state with parent := .join }
  | .post =>
      match program.posted with
      | some text => some { state.post.write (.parent text) with parent := .join }
      | none => some { state.post with parent := .join }
  | .join =>
      if state.child.ended then
        some { state.write (.parent program.joined) with parent := .unlink }
      else none
  | .unlink =>
      if state.linked then some { state with linked := false, parent := .exited true }
      else some { state.write (.perror "sem_unlink failed") with parent := .exited false }
  | .exited _ => none

/-- A call of `main` or of the parent fails. -/
def parentFails (state : State) : Option State :=
  match state.parent with
  | .create =>
      some { state.write (.perror "Semaphore creation failed") with parent := .exited false }
  | .fork => some (state.parentFailed "Fork failed")
  | .wait => some (state.parentFailed "sem_wait failed")
  | .attempt count => if count > 0 then some (retry state count) else none
  | .join => some (state.parentFailed "wait failed")
  | _ => none

/-- A step of either process. -/
def step (program : Program) : Step State Action :=
  fun state action =>
    match action with
    | .child => childStep state
    | .childFails => childFails program state
    | .parent => parentStep program state
    | .parentFails => parentFails state

end CExamples.Semaphores
