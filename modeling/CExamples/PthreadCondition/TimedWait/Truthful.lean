import CExamples.PthreadCondition.TimedWait.Faithful

/-!
# What the wait reports

In a run without disturbing steps `main` prints what happened.  After any disturbing
step it can print that the condition was signaled when it was not, or that it was not
when it was.
-/

namespace CExamples.PthreadCondition.TimedWait

open CExamples.Transition

/-- What `main` has printed is what happened. -/
structure Truthful (state : State) : Prop where
  /-- A signal is reported only after the thread has signaled. -/
  signaled : .signaled ∈ state.printed → state.signaledAt ≠ none
  /-- No timeout is reported when the thread has signaled before the deadline. -/
  timeout : ∀ time : Nat, state.signaledAt = some time → (time : Int) < state.deadline →
    .timeout ∉ state.printed

variable {mainSeconds : Int} {state after : State}

theorem Faithful.truthful (faithful : Faithful state) : Truthful state where
  signaled := faithful.signaled
  timeout time signaledAt early printed := by
    have late := (faithful.timedOut (Or.inr printed)).2 time signaledAt
    omega

/-! ## Undisturbed runs -/

/-- The states of the runs without a disturbing step. -/
def Undisturbed (mainSeconds : Int) (now : Nat) (state : State) : Prop :=
  Reachable (restrict (step mainSeconds) fun state action => undisturbed state action = true)
    (initial now) state

theorem Undisturbed.faithful {now : Nat} (run : Undisturbed mainSeconds now state) :
    Faithful state := by
  apply run.invariant (Faithful.initial now)
  intro before action after faithful stepped
  obtain ⟨allowed, stepped⟩ := restrict_eq_some_iff.mp stepped
  exact faithful.step allowed stepped

/-- The thread signals while `main` waits. -/
def signalSchedule : List Action :=
  [.main, .main, .main, .thread, .thread, .thread, .main, .main, .main]

/-- In an undisturbed run `main` prints what happened. -/
theorem undisturbed_truthful {now : Nat} (run : Undisturbed mainSeconds now state) :
    Truthful state :=
  run.faithful.truthful

theorem signal_truthful :
    ∃ state, Undisturbed 5 0 state ∧ state.printed = [.signaled] ∧ Truthful state := by
  have run : exec (restrict (step 5) fun state action => undisturbed state action = true)
      (initial 0) signalSchedule =
        some ⟨0, 5, none, .join, .exited, some 0, [.signaled]⟩ := by decide
  have undisturbed := reachable_of_exec run
  exact ⟨_, undisturbed, rfl, undisturbed_truthful undisturbed⟩

/-- The wait ends without a reason, and `main` prints its line. -/
def spuriousSchedule : List Action :=
  [.main, .main, .main, .spurious, .main, .main, .main]

/-- The thread signals first, and `main` waits for the deadline. -/
def lostSchedule : List Action :=
  [.thread, .thread, .thread, .main, .main, .main, .tick, .tick, .tick, .tick, .tick, .timeout,
    .main, .main, .main]

/-- A signal is reported that was not given, and one that was given is denied. -/
theorem wait_untruthful :
    (∃ state, Reachable (step 5) (initial 0) state ∧ state.printed = [.signaled] ∧
        state.signaledAt = none) ∧
      ∃ state, Reachable (step 5) (initial 0) state ∧ state.printed = [.timeout] ∧
        state.signaledAt = some 0 ∧ state.deadline = 5 := by
  have spurious : exec (step 5) (initial 0) spuriousSchedule =
      some ⟨0, 5, none, .join, .sleep, none, [.signaled]⟩ := by decide
  have lost : exec (step 5) (initial 0) lostSchedule =
      some ⟨5, 5, none, .join, .exited, some 0, [.timeout]⟩ := by decide
  exact ⟨⟨_, reachable_of_exec spurious, rfl, rfl⟩, _, reachable_of_exec lost, rfl, rfl, rfl⟩

/-! ## Disturbed runs -/

theorem reachable_ticks (mainSeconds : Int) (state : State) (ticks : Nat) :
    Reachable (step mainSeconds) state { state with now := state.now + ticks } := by
  induction ticks with
  | zero => exact Reachable.refl _ _
  | succ ticks ih =>
      have ticked : step mainSeconds { state with now := state.now + ticks } .tick =
          some { state with now := state.now + (ticks + 1) } := rfl
      exact ih.tail ticked

/-- `main` waits for a signal that was given, until the deadline. -/
theorem exists_untruthful_of_lock (mainEq : state.main = .lock) (free : state.mutex = none)
    {time : Nat} (signaledAt : state.signaledAt = some time)
    (early : (time : Int) < state.deadline) :
    ∃ later, Reachable (step mainSeconds) state later ∧ ¬Truthful later := by
  obtain ⟨now, deadline, mutex, main, thread, signaled, printed⟩ := state
  simp only at mainEq free signaledAt early
  subst mainEq free signaledAt
  have begins : exec (step mainSeconds) ⟨now, deadline, none, .lock, thread, some time, printed⟩
      [.main, .main] = some ⟨now, deadline, none, .waiting, thread, some time, printed⟩ := rfl
  have waits := reachable_ticks mainSeconds
    ⟨now, deadline, none, .waiting, thread, some time, printed⟩ (deadline - now).toNat
  have passed : deadline ≤ ((now + (deadline - now).toNat : Nat) : Int) := by omega
  have ends : exec (step mainSeconds)
      ⟨now + (deadline - now).toNat, deadline, none, .waiting, thread, some time, printed⟩
      [.timeout, .main, .main, .main] =
        some ⟨now + (deadline - now).toNat, deadline, none, .join, thread, some time,
          printed ++ [.timeout]⟩ := by
    simp only [exec, step, passed, and_self, if_true, mainStep, acquire, report, Option.bind,
      Option.map]
    rfl
  refine ⟨_, ((reachable_of_exec begins).trans waits).trans (reachable_of_exec ends), ?_⟩
  intro truthful
  exact truthful.timeout time rfl early (by simp)

/-- After a wakeup without a reason `main` prints that the condition was signaled. -/
theorem exists_untruthful_of_woken (mainEq : state.main = .woken 0) (free : state.mutex = none)
    (unsignaled : state.signaledAt = none) :
    ∃ later, Reachable (step mainSeconds) state later ∧ ¬Truthful later := by
  obtain ⟨now, deadline, mutex, main, thread, signaled, printed⟩ := state
  simp only at mainEq free unsignaled
  subst mainEq free unsignaled
  have prints : exec (step mainSeconds) ⟨now, deadline, none, .woken 0, thread, none, printed⟩
      [.main, .main, .main] =
        some ⟨now, deadline, none, .join, thread, none, printed ++ [.signaled]⟩ := rfl
  refine ⟨_, reachable_of_exec prints, ?_⟩
  intro truthful
  exact truthful.signaled (by simp) rfl

/-- Nobody is critical, so the mutex is free. -/
theorem Faithful.free (faithful : Faithful state) (notCritical : ∀ holder, ¬state.Critical holder) :
    state.mutex = none := by
  cases mutexEq : state.mutex with
  | none => rfl
  | some holder => exact absurd ((faithful.exclusive holder).mpr mutexEq) (notCritical holder)

/-- `main` sets a deadline after the signal and waits. -/
theorem exists_untruthful_of_clock (mainEq : state.main = .clock) (free : state.mutex = none)
    {time : Nat} (signaledAt : state.signaledAt = some time) (past : time ≤ state.now) :
    ∃ later, Reachable (step mainSeconds) state later ∧ ¬Truthful later := by
  obtain ⟨now, deadline, mutex, main, thread, signaled, printed⟩ := state
  simp only at mainEq free signaledAt past
  subst mainEq free signaledAt
  have ticks := reachable_ticks mainSeconds
    ⟨now, deadline, none, .clock, thread, some time, printed⟩ (1 - mainSeconds).toNat
  have set : step mainSeconds
      ⟨now + (1 - mainSeconds).toNat, deadline, none, .clock, thread, some time, printed⟩ .main =
      some ⟨now + (1 - mainSeconds).toNat, (now + (1 - mainSeconds).toNat : Nat) + mainSeconds,
        none, .lock, thread, some time, printed⟩ := rfl
  have early : (time : Int) < (now + (1 - mainSeconds).toNat : Nat) + mainSeconds := by omega
  obtain ⟨later, more, untruthful⟩ := @exists_untruthful_of_lock mainSeconds
    ⟨now + (1 - mainSeconds).toNat, (now + (1 - mainSeconds).toNat : Nat) + mainSeconds, none,
      .lock, thread, some time, printed⟩ rfl rfl time rfl early
  exact ⟨later, (ticks.tail set).trans more, untruthful⟩

/-- A signal that is given before `main` waits is lost. -/
theorem exists_untruthful_of_signal (faithful : Faithful state)
    (threadEq : state.thread = .critical) (notWaited : state.main.hasWaited = false)
    (early : state.main = .clock ∨ ¬state.deadline ≤ state.now)
    (stepped : threadStep state = some after) :
    ∃ later, Reachable (step mainSeconds) after later ∧ ¬Truthful later := by
  simp only [threadStep, threadEq] at stepped
  cases stepped
  cases mainEq : state.main with
  | clock => exact exists_untruthful_of_clock rfl rfl rfl (Nat.le_refl state.now)
  | lock =>
      have later := early.resolve_left (by rw [mainEq]; rintro ⟨⟩)
      exact exists_untruthful_of_lock rfl rfl rfl (Int.not_le.mp later)
  | timedwait =>
      have main : state.Critical .main := Or.inl mainEq
      have thread : state.Critical .thread := threadEq
      cases faithful.exclusive.unique main thread
  | waiting | woken | returned | print | join | exited =>
      rw [mainEq] at notWaited
      cases notWaited

/-- Every disturbing step of a run can lead to a wrong line. -/
theorem disturbed_untruthful {now : Nat} {action : Action}
    (run : Undisturbed mainSeconds now state) (disturbed : undisturbed state action = false)
    (stepped : step mainSeconds state action = some after) :
    ∃ later, Reachable (step mainSeconds) (initial now) later ∧ ¬Truthful later := by
  have faithful := run.faithful
  have reached := run.of_restrict.tail stepped
  suffices found : ∃ later, Reachable (step mainSeconds) after later ∧ ¬Truthful later by
    obtain ⟨later, more, untruthful⟩ := found
    exact ⟨later, reached.trans more, untruthful⟩
  cases action with
  | main => cases disturbed
  | tick => cases disturbed
  | timeout => cases disturbed
  | spurious =>
      simp only [undisturbed, Bool.or_eq_false_iff, Option.isSome_eq_false_iff,
        decide_eq_false_iff_not, Option.isNone_iff_eq_none] at disturbed
      obtain ⟨unsignaled, notCritical⟩ := disturbed
      simp only [step] at stepped
      split at stepped
      · rename_i waiting
        have free : state.mutex = none := by
          apply faithful.free
          intro holder
          cases holder with
          | main => simp [State.Critical, waiting]
          | thread => exact notCritical
        cases stepped
        exact @exists_untruthful_of_woken mainSeconds { state with main := .woken 0 } rfl free
          unsignaled
      · cases stepped
  | thread =>
      have critical : state.thread = .critical := by simp_all [undisturbed]
      apply exists_untruthful_of_signal faithful critical _ _ stepped
      · simp_all [undisturbed]
      · by_cases created : state.main = .clock
        · exact Or.inl created
        · simp_all [undisturbed]

end CExamples.PthreadCondition.TimedWait
