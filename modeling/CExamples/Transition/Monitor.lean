import Mathlib.Logic.Basic

/-!
# Mutexes and condition variables

A mutex has at most one holder, and a thread takes it only while it is free.  A
thread that waits on a condition variable has given the mutex up; a wakeup ends
the wait, and the thread takes the mutex again before it goes on.  A wakeup is
lost on a thread that does not wait.
-/

namespace CExamples.Transition

universe u

/-- Where a thread stands in a section that a mutex protects. -/
inductive Position
  /-- in `pthread_mutex_lock` -/
  | lock
  /-- holding the mutex -/
  | critical
  /-- in `pthread_cond_wait`, without a wakeup -/
  | waiting
  /-- in `pthread_cond_wait`, after a wakeup -/
  | woken
  deriving DecidableEq, Repr

/-- A wakeup. -/
def Position.wake : Position → Position
  | .waiting => .woken
  | position => position

@[simp]
theorem Position.wake_ne_waiting (position : Position) : position.wake ≠ .waiting := by
  cases position <;> exact nofun

@[simp]
theorem Position.wake_eq_critical {position : Position} :
    position.wake = .critical ↔ position = .critical := by
  cases position <;> simp [wake]

section Mutex

variable {τ : Type u}

/-- The holder of the mutex after `thread` takes it, unless it is held. -/
def acquire (holder : Option τ) (thread : τ) : Option (Option τ) :=
  match holder with
  | none => some (some thread)
  | some _ => none

@[simp]
theorem acquire_eq_some {holder after : Option τ} {thread : τ} :
    acquire holder thread = some after ↔ holder = none ∧ after = some thread := by
  cases holder <;> simp [acquire, eq_comm]

/-- The holder of the mutex is the thread in its critical section. -/
def Exclusive (holder : Option τ) (critical : τ → Prop) : Prop :=
  ∀ thread, critical thread ↔ holder = some thread

namespace Exclusive

variable {holder : Option τ} {before after : τ → Prop} {thread : τ}

/-- Two threads are never in their critical sections at once. -/
theorem unique (exclusive : Exclusive holder before) {other : τ} (first : before thread)
    (second : before other) : thread = other :=
  Option.some.inj (((exclusive thread).mp first).symm.trans ((exclusive other).mp second))

/-- While the mutex is free no thread is in its critical section. -/
theorem not_critical (exclusive : Exclusive holder before) (free : holder = none) :
    ¬before thread := by
  intro critical
  rw [free] at exclusive
  cases (exclusive thread).mp critical

theorem acquire (exclusive : Exclusive holder before) (free : holder = none)
    (entered : after thread) (others : ∀ other, other ≠ thread → (after other ↔ before other)) :
    Exclusive (some thread) after := by
  subst free
  intro other
  by_cases same : other = thread
  · subst same
    exact iff_of_true entered rfl
  · rw [others other same, exclusive other]
    exact iff_of_false nofun fun eq => same (Option.some.inj eq).symm

theorem release (exclusive : Exclusive holder before) (held : before thread)
    (left : ¬after thread) (others : ∀ other, other ≠ thread → (after other ↔ before other)) :
    Exclusive none after := by
  intro other
  refine iff_of_false ?_ nofun
  by_cases same : other = thread
  · rwa [same]
  · rw [others other same]
    exact fun entered => same (exclusive.unique entered held)

theorem congr (exclusive : Exclusive holder before)
    (same : ∀ other, after other ↔ before other) : Exclusive holder after := by
  intro other
  rw [same other, exclusive other]

end Exclusive

end Mutex

end CExamples.Transition
