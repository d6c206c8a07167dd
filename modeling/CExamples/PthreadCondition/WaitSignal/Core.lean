import CExamples.Transition.Core
import CExamples.Transition.Monitor
import CExamples.Word.CString

/-!
# A word handed over under a condition variable

`pthread-condition/pthread_cond_wait-pthread_cond_signal/main.c`.  Two threads
share a slot for one word: `child_process` calls `send_word` for each word of its
file and last for `NULL`, and `parent_process` prints what it finds until it finds
`NULL`.  One condition variable serves both directions.

A thread moves when it takes the mutex, when it runs its critical section up to
the unlock or the wait, and, for the parent, when it reads `shared_word` after
the unlock.  A waiting thread may also wake up without a signal.
-/

namespace CExamples.PthreadCondition.WaitSignal

open CExamples.Transition
open CExamples.Word

inductive Thread
  | child
  | parent
  deriving DecidableEq, Repr

/-- Where the child is: in `send_word`, with the words it sends later, or after
`pthread_exit`. -/
inductive Child
  | sendWord (position : Position) (word : Option Token) (later : List Token)
  | exited
  deriving DecidableEq

/-- Where the parent is. -/
inductive Parent
  /-- in the section that takes `word_ready` back -/
  | receive (position : Position)
  /-- before `word = data->shared_word` -/
  | readWord
  | exited
  deriving DecidableEq

/-- The fields of `shared_data`, the two threads and the printed words. -/
structure State where
  mutex : Option Thread
  wordReady : Bool
  sharedWord : Option Token
  child : Child
  parent : Parent
  printed : List Token
  deriving DecidableEq

/-- A thread takes its next step or wakes up without a signal. -/
inductive Action
  | move (thread : Thread)
  | wake (thread : Thread)
  deriving DecidableEq, Repr

namespace Child

/-- The next call of `send_word` in `child_process`. -/
def next : List Token → Child
  | [] => .sendWord .lock none []
  | word :: later => .sendWord .lock (some word) later

def position : Child → Option Position
  | .sendWord position _ _ => some position
  | .exited => none

def wake : Child → Child
  | .sendWord position word later => .sendWord position.wake word later
  | .exited => .exited

@[simp]
theorem position_wake (child : Child) : child.wake.position = child.position.map .wake := by
  cases child <;> rfl

@[simp]
theorem wake_eq_exited {child : Child} : child.wake = .exited ↔ child = .exited := by
  cases child <;> simp [wake]

end Child

namespace Parent

def position : Parent → Option Position
  | .receive position => some position
  | .readWord => none
  | .exited => none

def wake : Parent → Parent
  | .receive position => .receive position.wake
  | .readWord => .readWord
  | .exited => .exited

@[simp]
theorem position_wake (parent : Parent) : parent.wake.position = parent.position.map .wake := by
  cases parent <;> rfl

@[simp]
theorem wake_eq_readWord {parent : Parent} : parent.wake = .readWord ↔ parent = .readWord := by
  cases parent <;> simp [wake]

@[simp]
theorem wake_eq_exited {parent : Parent} : parent.wake = .exited ↔ parent = .exited := by
  cases parent <;> simp [wake]

end Parent

/-- The state after both threads were created. -/
def initial (words : List Token) : State where
  mutex := none
  wordReady := false
  sharedWord := none
  child := Child.next words
  parent := .receive .lock
  printed := []

/-- The critical section of `send_word`. -/
def State.sendWord (state : State) (word : Option Token) (later : List Token) : State :=
  if state.wordReady then
    { state with mutex := none, child := .sendWord .waiting word later }
  else
    { state with
      mutex := none
      wordReady := true
      sharedWord := word
      parent := state.parent.wake
      child :=
        match word with
        | some _ => Child.next later
        | none => .exited }

/-- The critical section of `parent_process`. -/
def State.receive (state : State) : State :=
  if state.wordReady then
    { state with
      mutex := none
      wordReady := false
      child := state.child.wake
      parent := .readWord }
  else
    { state with mutex := none, parent := .receive .waiting }

/-- A step of `child_process`. -/
def childStep (state : State) : Option State :=
  match state.child with
  | .sendWord .critical word later => some (state.sendWord word later)
  | .sendWord .waiting _ _ => none
  | .sendWord _ word later =>
      (acquire state.mutex .child).map fun mutex =>
        { state with mutex := mutex, child := .sendWord .critical word later }
  | .exited => none

/-- A step of `parent_process`. -/
def parentStep (state : State) : Option State :=
  match state.parent with
  | .receive .critical => some state.receive
  | .receive .waiting => none
  | .receive _ =>
      (acquire state.mutex .parent).map fun mutex =>
        { state with mutex := mutex, parent := .receive .critical }
  | .readWord =>
      match state.sharedWord with
      | none => some { state with parent := .exited }
      | some word =>
          some { state with printed := state.printed ++ [word], parent := .receive .lock }
  | .exited => none

/-- A step of either thread. -/
def step : Step State Action :=
  fun state action =>
    match action with
    | .move .child => childStep state
    | .move .parent => parentStep state
    | .wake .child =>
        if state.child.position = some .waiting then some { state with child := state.child.wake }
        else none
    | .wake .parent =>
        if state.parent.position = some .waiting then
          some { state with parent := state.parent.wake }
        else none

/-! ## What a step does -/

variable {state after : State}

/-- A step of the child takes the mutex or runs the critical section. -/
theorem childStep_cases (stepped : childStep state = some after) :
    ∃ position word later, state.child = .sendWord position word later ∧
      (position ≠ .critical ∧ state.mutex = none ∧
          after = { state with
            mutex := some .child
            child := .sendWord .critical word later } ∨
        position = .critical ∧ after = state.sendWord word later) := by
  unfold childStep at stepped
  split at stepped
  · rename_i word later childEq
    cases stepped
    exact ⟨.critical, word, later, childEq, Or.inr ⟨rfl, rfl⟩⟩
  · cases stepped
  · rename_i position word later notCritical _ childEq
    obtain ⟨mutex, acquired, rfl⟩ := Option.map_eq_some_iff.mp stepped
    obtain ⟨free, rfl⟩ := acquire_eq_some.mp acquired
    exact ⟨position, word, later, childEq, Or.inl ⟨notCritical, free, rfl⟩⟩
  · cases stepped

/-- A step of the parent takes the mutex, runs the critical section or reads the
slot. -/
theorem parentStep_cases (stepped : parentStep state = some after) :
    (∃ position, state.parent = .receive position ∧
      (position ≠ .critical ∧ state.mutex = none ∧
          after = { state with mutex := some .parent, parent := .receive .critical } ∨
        position = .critical ∧ after = state.receive)) ∨
    state.parent = .readWord ∧
      (state.sharedWord = none ∧ after = { state with parent := .exited } ∨
        ∃ word, state.sharedWord = some word ∧
          after = { state with
            printed := state.printed ++ [word]
            parent := .receive .lock }) := by
  unfold parentStep at stepped
  split at stepped
  · rename_i parentEq
    cases stepped
    exact Or.inl ⟨.critical, parentEq, Or.inr ⟨rfl, rfl⟩⟩
  · cases stepped
  · rename_i position notCritical _ parentEq
    obtain ⟨mutex, acquired, rfl⟩ := Option.map_eq_some_iff.mp stepped
    obtain ⟨free, rfl⟩ := acquire_eq_some.mp acquired
    exact Or.inl ⟨position, parentEq, Or.inl ⟨notCritical, free, rfl⟩⟩
  · rename_i parentEq
    refine Or.inr ⟨parentEq, ?_⟩
    split at stepped
    · rename_i empty
      cases stepped
      exact Or.inl ⟨empty, rfl⟩
    · rename_i word slot
      cases stepped
      exact Or.inr ⟨word, slot, rfl⟩
  · cases stepped

/-- A wakeup without a signal changes only the thread that wakes up. -/
theorem wake_cases {thread : Thread} (stepped : step state (.wake thread) = some after) :
    after = { state with child := state.child.wake } ∨
      after = { state with parent := state.parent.wake } := by
  cases thread with
  | child =>
      simp only [step] at stepped
      split at stepped
      · exact Or.inl (Option.some.inj stepped).symm
      · cases stepped
  | parent =>
      simp only [step] at stepped
      split at stepped
      · exact Or.inr (Option.some.inj stepped).symm
      · cases stepped

/-- A thread that is not at its critical section or at the wait takes the mutex
when it is free. -/
theorem exists_childStep {position : Position} {word : Option Token} {later : List Token}
    (childEq : state.child = .sendWord position word later) (notWaiting : position ≠ .waiting)
    (free : position = .critical ∨ state.mutex = none) : ∃ after, childStep state = some after := by
  cases position with
  | critical => exact ⟨_, by rw [childStep, childEq]⟩
  | waiting => exact absurd rfl notWaiting
  | lock | woken =>
      rcases free with _ | none
      · contradiction
      · exact ⟨_, by rw [childStep, childEq, none]; rfl⟩

theorem exists_parentStep {position : Position} (parentEq : state.parent = .receive position)
    (notWaiting : position ≠ .waiting) (free : position = .critical ∨ state.mutex = none) :
    ∃ after, parentStep state = some after := by
  cases position with
  | critical => exact ⟨_, by rw [parentStep, parentEq]⟩
  | waiting => exact absurd rfl notWaiting
  | lock | woken =>
      rcases free with _ | none
      · contradiction
      · exact ⟨_, by rw [parentStep, parentEq, none]; rfl⟩

end CExamples.PthreadCondition.WaitSignal
