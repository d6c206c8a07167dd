import CExamples.PthreadCondition.TimedWait.Core

/-!
# Undisturbed waits

Two steps disturb the wait: that it ends without a reason while the thread has not
signaled, and that the thread signals before `main` waits for it.  Without them a
wait that has returned 0 was signaled, and one that has timed out was not signaled
before the deadline.
-/

namespace CExamples.PthreadCondition.TimedWait

open CExamples.Transition

namespace Main

/-- The wait has not ended. -/
def Before : Main → Prop
  | .clock => True
  | .lock => True
  | .timedwait => True
  | .waiting => True
  | _ => False

/-- `main` has begun to wait. -/
def hasWaited : Main → Bool
  | .clock => false
  | .lock => false
  | .timedwait => false
  | _ => true

/-- What the wait has returned and `main` has not printed. -/
def result : Main → Option Int
  | .woken result => some result
  | .returned result => some result
  | .print result => some result
  | _ => none

/-- `main` has printed its line. -/
def Reported : Main → Prop
  | .join => True
  | .exited => True
  | _ => False

end Main

/-- A thread holds the mutex. -/
def State.Critical (state : State) : Thread → Prop
  | .main => state.main = .timedwait ∨ ∃ result, state.main = .returned result
  | .thread => state.thread = .critical

/-- The wait does not end without a reason before the thread has signaled or is about
to, and the thread does not signal before `main` waits or the deadline has passed. -/
def undisturbed (state : State) : Action → Bool
  | .spurious => state.signaledAt.isSome || state.thread = .critical
  | .thread =>
      state.thread ≠ .critical || state.main.hasWaited ||
        (state.main ≠ .clock && state.deadline ≤ state.now)
  | _ => true

/-- What holds in every state of an undisturbed run. -/
structure Faithful (state : State) : Prop where
  exclusive : Exclusive state.mutex state.Critical
  early : state.main.Before → ∀ time : Nat, state.signaledAt = some time →
    state.main ≠ .clock ∧ state.deadline ≤ time
  awake : state.main.result = some 0 →
    state.signaledAt ≠ none ∨ state.thread = .critical ∧ state.main = .woken 0
  timedOut : state.main.result = some etimedout ∨ .timeout ∈ state.printed →
    state.deadline ≤ state.now ∧
      ∀ time : Nat, state.signaledAt = some time → state.deadline ≤ time
  signaled : .signaled ∈ state.printed → state.signaledAt ≠ none
  unprinted : state.printed ≠ [] → state.main.Reported

variable {mainSeconds : Int} {state after : State}

namespace Faithful

theorem initial (now : Nat) : Faithful (initial now) where
  exclusive := by
    intro holder
    refine iff_of_false ?_ nofun
    cases holder with
    | main => simp [State.Critical, TimedWait.initial]
    | thread => exact nofun
  early := nofun
  awake := nofun
  timedOut := by simp [TimedWait.initial, Main.result]
  signaled := nofun
  unprinted printed := absurd rfl printed

/-- Before the line is printed nothing is. -/
theorem printed_eq_nil (faithful : Faithful state) (running : ¬state.main.Reported) :
    state.printed = [] := by
  cases printedEq : state.printed with
  | nil => rfl
  | cons line lines => exact absurd (faithful.unprinted (by simp [printedEq])) running

/-- `main` goes on and prints nothing. -/
theorem advance (faithful : Faithful state) {main : Main} {mutex : Option Thread}
    (exclusive : Exclusive mutex { state with mutex := mutex, main := main }.Critical)
    (before : main.Before → state.main.Before ∧ main ≠ .clock)
    (result : main.result = state.main.result)
    (awake : main.result = some 0 → state.signaledAt ≠ none)
    (reported : state.main.Reported → main.Reported) :
    Faithful { state with mutex := mutex, main := main } where
  exclusive := exclusive
  early still time signaledAt := by
    obtain ⟨earlier, created⟩ := before still
    exact ⟨created, (faithful.early earlier time signaledAt).2⟩
  awake signaled := Or.inl (awake signaled)
  timedOut timedOut := by
    apply faithful.timedOut
    rwa [← result]
  signaled := faithful.signaled
  unprinted printed := reported (faithful.unprinted printed)

/-- The other thread stays where it is. -/
theorem critical_of_ne {main : Main} {mutex : Option Thread} (other : Thread)
    (apart : other ≠ .main) :
    { state with mutex := mutex, main := main }.Critical other ↔ state.Critical other := by
  cases other with
  | main => exact absurd rfl apart
  | thread => exact Iff.rfl

/-- `main` goes on outside its critical section. -/
theorem exclusive_of_main (faithful : Faithful state) {deadline : Int} {main : Main}
    {printed : List Line} (outside : ¬state.Critical .main)
    (stays : ¬{ state with deadline, main, printed }.Critical .main) :
    Exclusive state.mutex { state with deadline, main, printed }.Critical := by
  apply faithful.exclusive.congr
  intro other
  cases other with
  | main => exact iff_of_false stays outside
  | thread => exact Iff.rfl

/-- The deadline is set before anything was signaled. -/
theorem clockStep (faithful : Faithful state) (mainEq : state.main = .clock) :
    Faithful { state with deadline := state.now + mainSeconds, main := .lock } where
  exclusive := by
    apply faithful.exclusive_of_main
    · simp [State.Critical, mainEq]
    · simp [State.Critical]
  early _ time signaledAt := by
    have early := faithful.early (by rw [mainEq]; trivial) time signaledAt
    exact absurd mainEq early.1
  awake := nofun
  timedOut := by
    have nothing := faithful.printed_eq_nil (by rw [mainEq]; exact nofun)
    simp [Main.result, nothing]
  signaled := faithful.signaled
  unprinted printed := by
    have reported := faithful.unprinted printed
    rw [mainEq] at reported
    cases reported

theorem report_eq_signaled {result : Int} (signaled : report result = .signaled) : result = 0 := by
  unfold report at signaled
  split at signaled
  · assumption
  · split at signaled
    · cases signaled
    · cases signaled

theorem report_eq_timeout {result : Int} (timeout : report result = .timeout) :
    result = etimedout := by
  unfold report at timeout
  split at timeout
  · cases timeout
  · split at timeout
    · assumption
    · cases timeout

/-- `main` prints its line. -/
theorem printStep (faithful : Faithful state) {result : Int} (mainEq : state.main = .print result) :
    Faithful { state with printed := state.printed ++ [report result], main := .join } where
  exclusive := by
    apply faithful.exclusive_of_main
    · simp [State.Critical, mainEq]
    · simp [State.Critical]
  early := nofun
  awake := nofun
  timedOut := by
    rintro (none | printed)
    · cases none
    · apply faithful.timedOut
      rcases List.mem_append.mp printed with before | now
      · exact Or.inr before
      · have timedOut := report_eq_timeout (List.mem_singleton.mp now).symm
        exact Or.inl (by rw [mainEq, timedOut]; rfl)
  signaled := by
    intro printed
    rcases List.mem_append.mp printed with before | now
    · exact faithful.signaled before
    · have zero := report_eq_signaled (List.mem_singleton.mp now).symm
      rcases faithful.awake (by rw [mainEq, zero]; rfl) with signaled | ⟨-, woken⟩
      · exact signaled
      · rw [mainEq] at woken
        cases woken
  unprinted _ := trivial

/-- `main` takes the mutex for the first time. -/
theorem lockStep (faithful : Faithful state) (mainEq : state.main = .lock)
    (free : state.mutex = none) :
    Faithful { state with mutex := some .main, main := .timedwait } := by
  apply faithful.advance
  · exact faithful.exclusive.acquire free (Or.inl rfl) critical_of_ne
  · rw [mainEq]
    exact fun _ => ⟨trivial, nofun⟩
  · rw [mainEq]
    rfl
  · exact nofun
  · rw [mainEq]
    exact nofun

/-- `main` starts to wait. -/
theorem timedwaitStep (faithful : Faithful state) (mainEq : state.main = .timedwait) :
    Faithful { state with mutex := none, main := .waiting } := by
  have held : state.Critical .main := Or.inl mainEq
  apply faithful.advance
  · exact faithful.exclusive.release held (by simp [State.Critical]) critical_of_ne
  · rw [mainEq]
    exact fun _ => ⟨trivial, nofun⟩
  · rw [mainEq]
    rfl
  · exact nofun
  · rw [mainEq]
    exact nofun

/-- `main` takes the mutex again.  A thread that was about to signal has done so. -/
theorem wokenStep (faithful : Faithful state) {result : Int} (mainEq : state.main = .woken result)
    (free : state.mutex = none) :
    Faithful { state with mutex := some .main, main := .returned result } := by
  apply faithful.advance
  · exact faithful.exclusive.acquire free (Or.inr ⟨result, rfl⟩) critical_of_ne
  · exact nofun
  · rw [mainEq]
    rfl
  · intro zero
    rcases faithful.awake (by rw [mainEq]; exact zero) with signaled | ⟨critical, -⟩
    · exact signaled
    · have held : state.Critical .thread := critical
      exact absurd held (faithful.exclusive.not_critical free)
  · rw [mainEq]
    exact nofun

/-- `main` gives the mutex up. -/
theorem returnedStep (faithful : Faithful state) {result : Int}
    (mainEq : state.main = .returned result) :
    Faithful { state with mutex := none, main := .print result } := by
  have held : state.Critical .main := Or.inr ⟨result, mainEq⟩
  apply faithful.advance
  · exact faithful.exclusive.release held (by simp [State.Critical]) critical_of_ne
  · exact nofun
  · rw [mainEq]
    rfl
  · intro zero
    rcases faithful.awake (by rw [mainEq]; exact zero) with signaled | ⟨-, woken⟩
    · exact signaled
    · rw [mainEq] at woken
      cases woken
  · rw [mainEq]
    exact nofun

/-- `main` has joined the thread. -/
theorem joinStep (faithful : Faithful state) (mainEq : state.main = .join) :
    Faithful { state with main := .exited } := by
  apply @advance state faithful .exited state.mutex
  · apply faithful.exclusive_of_main
    · simp [State.Critical, mainEq]
    · simp [State.Critical]
  · exact nofun
  · rw [mainEq]
    rfl
  · exact nofun
  · exact fun _ => trivial

theorem mainStep (faithful : Faithful state) (stepped : mainStep mainSeconds state = some after) :
    Faithful after := by
  cases mainEq : state.main with
  | clock =>
      simp only [TimedWait.mainStep, mainEq] at stepped
      cases stepped
      exact faithful.clockStep mainEq
  | lock =>
      simp only [TimedWait.mainStep, mainEq] at stepped
      obtain ⟨mutex, acquired, rfl⟩ := Option.map_eq_some_iff.mp stepped
      obtain ⟨free, rfl⟩ := acquire_eq_some.mp acquired
      exact faithful.lockStep mainEq free
  | timedwait =>
      simp only [TimedWait.mainStep, mainEq] at stepped
      cases stepped
      exact faithful.timedwaitStep mainEq
  | waiting =>
      simp only [TimedWait.mainStep, mainEq] at stepped
      cases stepped
  | woken result =>
      simp only [TimedWait.mainStep, mainEq] at stepped
      obtain ⟨mutex, acquired, rfl⟩ := Option.map_eq_some_iff.mp stepped
      obtain ⟨free, rfl⟩ := acquire_eq_some.mp acquired
      exact faithful.wokenStep mainEq free
  | returned result =>
      simp only [TimedWait.mainStep, mainEq] at stepped
      cases stepped
      exact faithful.returnedStep mainEq
  | print result =>
      simp only [TimedWait.mainStep, mainEq] at stepped
      cases stepped
      exact faithful.printStep mainEq
  | join =>
      simp only [TimedWait.mainStep, mainEq] at stepped
      split at stepped
      · cases stepped
        exact faithful.joinStep mainEq
      · cases stepped
  | exited =>
      simp only [TimedWait.mainStep, mainEq] at stepped
      cases stepped

/-- The clock advances. -/
theorem tick (faithful : Faithful state) : Faithful { state with now := state.now + 1 } where
  exclusive := faithful.exclusive.congr fun other => by cases other <;> exact Iff.rfl
  early := faithful.early
  awake := faithful.awake
  timedOut timedOut := by
    obtain ⟨passed, late⟩ := faithful.timedOut timedOut
    refine ⟨?_, late⟩
    push_cast
    omega
  signaled := faithful.signaled
  unprinted := faithful.unprinted

/-- The wait ends with `result`. -/
theorem wake (faithful : Faithful state) (mainEq : state.main = .waiting) {result : Int}
    (awake : result = 0 → state.signaledAt ≠ none ∨ state.thread = .critical)
    (timedOut : result = etimedout → state.deadline ≤ state.now) :
    Faithful { state with main := .woken result } where
  exclusive := by
    apply faithful.exclusive_of_main
    · simp [State.Critical, mainEq]
    · simp [State.Critical]
  early := nofun
  awake zero := by
    have resultEq : result = 0 := Option.some.inj zero
    rcases awake resultEq with signaled | critical
    · exact Or.inl signaled
    · exact Or.inr ⟨critical, by rw [resultEq]⟩
  timedOut := by
    rintro (resultEq | printed)
    · refine ⟨timedOut (Option.some.inj resultEq), ?_⟩
      intro time signaledAt
      exact (faithful.early (by rw [mainEq]; trivial) time signaledAt).2
    · rw [faithful.printed_eq_nil (by rw [mainEq]; exact nofun)] at printed
      cases printed
  signaled := faithful.signaled
  unprinted printed := by
    have reported := faithful.unprinted printed
    rw [mainEq] at reported
    cases reported

/-- The signal wakes `main` if it waits, and is lost otherwise. -/
theorem signalStep (faithful : Faithful state) (threadEq : state.thread = .critical)
    (timely : state.main.hasWaited = true ∨ state.main ≠ .clock ∧ state.deadline ≤ state.now) :
    Faithful { state with
      mutex := none
      main := state.main.signal
      thread := .exited
      signaledAt := some state.now } where
  exclusive := by
    have held : state.Critical .thread := threadEq
    apply faithful.exclusive.release held nofun
    intro other apart
    cases other with
    | main => cases mainEq : state.main <;> simp [State.Critical, mainEq, Main.signal]
    | thread => exact absurd rfl apart
  early before time signaledAt := by
    cases signaledAt
    cases mainEq : state.main with
    | clock | lock | timedwait =>
        rw [mainEq] at timely
        exact timely.resolve_left Bool.false_ne_true
    | waiting | woken | returned | print | join | exited =>
        rw [mainEq] at before
        cases before
  awake _ := Or.inl (Option.some_ne_none _)
  timedOut timedOut := by
    have passed : state.deadline ≤ state.now := by
      rcases timedOut with resultEq | printed
      · apply (faithful.timedOut (Or.inl _)).1
        cases mainEq : state.main with
        | waiting =>
            rw [mainEq] at resultEq
            exact absurd (Option.some.inj resultEq) (by decide)
        | _ =>
            rw [mainEq] at resultEq
            exact resultEq
      · exact (faithful.timedOut (Or.inr printed)).1
    refine ⟨passed, ?_⟩
    rintro _ ⟨⟩
    exact passed
  signaled _ := Option.some_ne_none _
  unprinted printed := by
    have reported := faithful.unprinted printed
    cases mainEq : state.main with
    | join | exited => trivial
    | clock | lock | timedwait | waiting | woken | returned | print =>
        rw [mainEq] at reported
        cases reported

/-- The thread goes on and signals nothing. -/
theorem moveThread (faithful : Faithful state) {thread : Worker} {mutex : Option Thread}
    (outside : state.thread ≠ .critical)
    (exclusive : Exclusive mutex { state with mutex, thread }.Critical) :
    Faithful { state with mutex, thread } where
  exclusive := exclusive
  early := faithful.early
  awake zero := (faithful.awake zero).imp_right fun held => absurd held.1 outside
  timedOut := faithful.timedOut
  signaled := faithful.signaled
  unprinted := faithful.unprinted

theorem threadStep (faithful : Faithful state)
    (timely : undisturbed state .thread = true) (stepped : threadStep state = some after) :
    Faithful after := by
  cases threadEq : state.thread with
  | sleep =>
      simp only [TimedWait.threadStep, threadEq] at stepped
      cases stepped
      apply @moveThread state faithful .lock state.mutex (by simp [threadEq])
      apply faithful.exclusive.congr
      intro other
      cases other with
      | main => exact Iff.rfl
      | thread => simp [State.Critical, threadEq]
  | lock =>
      simp only [TimedWait.threadStep, threadEq] at stepped
      obtain ⟨mutex, acquired, rfl⟩ := Option.map_eq_some_iff.mp stepped
      obtain ⟨free, rfl⟩ := acquire_eq_some.mp acquired
      apply faithful.moveThread (by simp [threadEq])
      refine faithful.exclusive.acquire free rfl ?_
      intro other apart
      cases other with
      | main => exact Iff.rfl
      | thread => exact absurd rfl apart
  | critical =>
      simp only [TimedWait.threadStep, threadEq] at stepped
      cases stepped
      apply faithful.signalStep threadEq
      simpa [undisturbed, threadEq] using timely
  | exited =>
      simp only [TimedWait.threadStep, threadEq] at stepped
      cases stepped

theorem step (faithful : Faithful state) {action : Action}
    (allowed : undisturbed state action = true)
    (stepped : step mainSeconds state action = some after) : Faithful after := by
  cases action with
  | main => exact faithful.mainStep stepped
  | thread => exact faithful.threadStep allowed stepped
  | tick =>
      cases stepped
      exact faithful.tick
  | timeout =>
      simp only [TimedWait.step] at stepped
      split at stepped
      · rename_i ready
        cases stepped
        exact faithful.wake ready.1 (fun zero => absurd zero (by decide)) fun _ => ready.2
      · cases stepped
  | spurious =>
      simp only [TimedWait.step] at stepped
      split at stepped
      · rename_i waiting
        cases stepped
        apply faithful.wake waiting
        · intro _
          simpa [undisturbed, Option.isSome_iff_ne_none] using allowed
        · exact fun timedOut => absurd timedOut (by decide)
      · cases stepped

end Faithful

end CExamples.PthreadCondition.TimedWait
