import CExamples.PthreadCondition.Broadcast.Core

/-!
# A broadcast releases every waiter

`shared_data` counts the updates, and a thread starts to wait only while updates are
missing.  The thread keeps the mutex from its test to the wait, so an update, which
needs the mutex, comes either before the test or after the thread waits; in the
second case its broadcast wakes the thread.  Hence no thread waits once the count is
complete.
-/

namespace CExamples.PthreadCondition.Broadcast

open CExamples.Transition

namespace Main

/-- How often `main` has updated `shared_data`. -/
def count (iterations : Nat) : Main → Nat
  | .create _ => 0
  | .iterate i => i
  | .lock i => i
  | .critical i => i
  | .join _ => iterations
  | .exited => iterations

/-- `main` stays within its second loop. -/
def InRange (iterations : Nat) : Main → Prop
  | .iterate i => i ≤ iterations
  | .lock i => i < iterations
  | .critical i => i < iterations
  | _ => True

/-- `main` has still to create the thread. -/
def Creates (thread : Nat) : Main → Prop
  | .create t => t ≤ thread
  | _ => False

/-- `main` has joined the thread. -/
def Joined (thread : Nat) : Main → Prop
  | .join t => thread < t
  | .exited => True
  | _ => False

/-- `main` has finished its iterations. -/
def Finished : Main → Prop
  | .join _ => True
  | .exited => True
  | _ => False

end Main

variable {numThreads iterations : Nat} {state after : State numThreads}
  {thread : Fin numThreads}

/-- A thread holds the mutex. -/
def State.Critical (state : State numThreads) : Thread numThreads → Prop
  | .main => ∃ i, state.main = .critical i
  | .worker thread => state.worker thread = .running .critical

/-- What holds in every state of a run. -/
structure Counting (iterations : Nat) (state : State numThreads) : Prop where
  exclusive : Exclusive state.mutex state.Critical
  sharedData : state.sharedData = state.main.count iterations
  inRange : state.main.InRange iterations
  absent : ∀ thread : Fin numThreads, state.worker thread = .absent ↔ state.main.Creates thread
  joined : ∀ thread : Fin numThreads, state.main.Joined thread → state.worker thread = .exited
  left : ∀ thread, state.worker thread = .exited → iterations ≤ state.sharedData
  asleep : ∀ thread, state.worker thread = .running .waiting → state.sharedData < iterations

namespace Counting

theorem initial (numThreads iterations : Nat) : Counting iterations (initial numThreads) where
  exclusive := by
    intro thread
    refine iff_of_false ?_ nofun
    cases thread with
    | main => exact nofun
    | worker thread => exact nofun
  sharedData := rfl
  inRange := trivial
  absent thread := iff_of_true rfl (Nat.zero_le _)
  joined := nofun
  left := nofun
  asleep := nofun

/-- A running thread goes on. -/
theorem move (counting : Counting iterations state) {position : Position}
    (workerEq : state.worker thread = .running position) {worker : Worker}
    {mutex : Option (Thread numThreads)}
    (exclusive : Exclusive mutex { state.set thread worker with mutex := mutex }.Critical)
    (present : worker ≠ .absent) (left : worker = .exited → iterations ≤ state.sharedData)
    (asleep : worker = .running .waiting → state.sharedData < iterations) :
    Counting iterations { state.set thread worker with mutex := mutex } where
  exclusive := exclusive
  sharedData := counting.sharedData
  inRange := counting.inRange
  absent other := by
    by_cases same : other = thread
    · subst same
      have created := counting.absent other
      rw [workerEq] at created
      simpa [present] using created
    · simpa [same] using counting.absent other
  joined other joined := by
    have exited := counting.joined other joined
    have apart : other ≠ thread := by
      rintro rfl
      rw [workerEq] at exited
      cases exited
    simpa [apart] using exited
  left other exited := by
    by_cases same : other = thread
    · subst same
      exact left (by simpa using exited)
    · exact counting.left other (by simpa [same] using exited)
  asleep other waiting := by
    by_cases same : other = thread
    · subst same
      exact asleep (by simpa using waiting)
    · exact counting.asleep other (by simpa [same] using waiting)

/-- The other threads stay where they are. -/
theorem critical_set_of_ne {worker : Worker} {mutex : Option (Thread numThreads)}
    (other : Thread numThreads) (apart : other ≠ .worker thread) :
    { state.set thread worker with mutex := mutex }.Critical other ↔ state.Critical other := by
  cases other with
  | main => exact Iff.rfl
  | worker other =>
      have apart : other ≠ thread := fun same => apart (congrArg Thread.worker same)
      simp [State.Critical, apart]

theorem workerStep (counting : Counting iterations state)
    (stepped : workerStep iterations thread state = some after) : Counting iterations after := by
  rcases workerStep_cases stepped with
    ⟨position, workerEq, -, free, rfl⟩ | ⟨workerEq, ⟨short, rfl⟩ | ⟨complete, rfl⟩⟩
  · apply counting.move workerEq
    · exact counting.exclusive.acquire free (by simp [State.Critical]) critical_set_of_ne
    · exact nofun
    · exact nofun
    · exact nofun
  · have held : state.Critical (.worker thread) := workerEq
    apply counting.move workerEq
    · exact counting.exclusive.release held (by simp [State.Critical]) critical_set_of_ne
    · exact nofun
    · exact nofun
    · exact fun _ => short
  · have held : state.Critical (.worker thread) := workerEq
    apply counting.move workerEq
    · exact counting.exclusive.release held (by simp [State.Critical]) critical_set_of_ne
    · exact nofun
    · exact fun _ => complete
    · exact nofun

/-- A wakeup without a broadcast. -/
theorem wake (counting : Counting iterations state)
    (waiting : state.worker thread = .running .waiting) :
    Counting iterations (state.set thread (state.worker thread).wake) := by
  rw [waiting]
  apply @move numThreads iterations state thread counting .waiting waiting _ state.mutex
  · apply counting.exclusive.congr
    intro other
    by_cases same : other = .worker thread
    · subst same
      simp [State.Critical, waiting, Worker.wake, Position.wake]
    · exact critical_set_of_ne other same
  · rintro ⟨⟩
  · rintro ⟨⟩
  · rintro ⟨⟩

/-- `main` goes on without touching the mutex, the data or a thread. -/
theorem advance (counting : Counting iterations state) {main : Main}
    (leaves : ∀ i, state.main ≠ .critical i) (enters : ∀ i, main ≠ .critical i)
    (count : main.count iterations = state.main.count iterations)
    (inRange : main.InRange iterations)
    (creates : ∀ thread : Fin numThreads, main.Creates thread ↔ state.main.Creates thread)
    (joined : ∀ thread : Fin numThreads, main.Joined thread → state.worker thread = .exited) :
    Counting iterations { state with main := main } where
  exclusive := by
    apply counting.exclusive.congr
    intro other
    cases other with
    | main => simp [State.Critical, leaves, enters]
    | worker other => exact Iff.rfl
  sharedData := counting.sharedData.trans count.symm
  inRange := inRange
  absent other := (counting.absent other).trans (creates other).symm
  joined := joined
  left := counting.left
  asleep := counting.asleep

/-- The second loop, or its end. -/
theorem iterateStep (counting : Counting iterations state) {i : Nat}
    (mainEq : state.main = .iterate i) :
    Counting iterations
      { state with main := if i < iterations then .lock i else .join 0 } := by
  have inRange := counting.inRange
  rw [mainEq] at inRange
  apply counting.advance
  · simp [mainEq]
  · intro i
    split <;> exact nofun
  · rw [mainEq]
    split
    · rfl
    · rename_i done
      exact Nat.le_antisymm (Nat.not_lt.mp done) inRange
  · split
    · assumption
    · trivial
  · intro thread
    rw [mainEq]
    split <;> exact Iff.rfl
  · intro thread joined
    split at joined
    · cases joined
    · exact absurd joined (Nat.not_lt_zero thread)

/-- `main` creates a thread. -/
theorem createStep (counting : Counting iterations state) {t : Nat}
    (mainEq : state.main = .create t) (inside : t < numThreads) :
    Counting iterations
      { state.set ⟨t, inside⟩ (.running .lock) with main := .create (t + 1) } where
  exclusive := by
    have new : state.worker ⟨t, inside⟩ = .absent := by
      rw [counting.absent, mainEq]
      exact Nat.le_refl t
    apply counting.exclusive.congr
    intro other
    cases other with
    | main => simp [State.Critical, mainEq]
    | worker other =>
        by_cases same : other = ⟨t, inside⟩
        · subst same
          simp [State.Critical, new]
        · simp [State.Critical, same]
  sharedData := by
    have sharedData := counting.sharedData
    rwa [mainEq] at sharedData
  inRange := trivial
  absent other := by
    have absent := counting.absent other
    rw [mainEq] at absent
    by_cases same : other = ⟨t, inside⟩
    · subst same
      simp [Main.Creates]
    · have apart : t ≠ other := fun equal => same (Fin.ext equal.symm)
      simp only [State.worker_set_of_ne same, absent, Main.Creates]
      omega
  joined := nofun
  left other exited := by
    by_cases same : other = ⟨t, inside⟩
    · subst same
      simp at exited
    · exact counting.left other (by simpa [same] using exited)
  asleep other waiting := by
    by_cases same : other = ⟨t, inside⟩
    · subst same
      simp at waiting
    · exact counting.asleep other (by simpa [same] using waiting)

/-- `main` takes the mutex. -/
theorem lockStep (counting : Counting iterations state) {i : Nat} (mainEq : state.main = .lock i)
    (free : state.mutex = none) :
    Counting iterations { state with mutex := some .main, main := .critical i } where
  exclusive := by
    apply counting.exclusive.acquire free ⟨i, rfl⟩
    intro other apart
    cases other with
    | main => exact absurd rfl apart
    | worker other => exact Iff.rfl
  sharedData := by
    have sharedData := counting.sharedData
    rwa [mainEq] at sharedData
  inRange := by
    have inRange := counting.inRange
    rwa [mainEq] at inRange
  absent other := by
    have absent := counting.absent other
    rwa [mainEq] at absent
  joined := nofun
  left := counting.left
  asleep := counting.asleep

/-- `main` joins a thread, or ends after the last one. -/
theorem joinStep (counting : Counting iterations state) {t : Nat} (mainEq : state.main = .join t)
    (stepped : Broadcast.mainStep iterations state = some after) : Counting iterations after := by
  have joined := counting.joined
  simp only [mainEq, Main.Joined] at joined
  simp only [Broadcast.mainStep, mainEq] at stepped
  split at stepped
  · rename_i inside
    split at stepped
    · rename_i exited
      cases stepped
      apply counting.advance
      · simp [mainEq]
      · exact nofun
      · rw [mainEq]
        rfl
      · trivial
      · simp [mainEq, Main.Creates]
      · intro thread before
        rcases Nat.lt_succ_iff_lt_or_eq.mp before with earlier | same
        · exact joined thread earlier
        · have equal : thread = ⟨t, inside⟩ := Fin.ext same
          rw [equal, exited]
    · cases stepped
  · rename_i all
    cases stepped
    apply counting.advance
    · simp [mainEq]
    · exact nofun
    · rw [mainEq]
      rfl
    · trivial
    · simp [mainEq, Main.Creates]
    · intro thread _
      have small := thread.isLt
      exact joined thread (by omega)

/-- An update wakes all that wait. -/
theorem updateStep (counting : Counting iterations state) {i : Nat}
    (mainEq : state.main = .critical i) :
    Counting iterations
      { state with
        mutex := none
        sharedData := i + 1
        main := .iterate (i + 1)
        worker := fun thread => (state.worker thread).wake } where
  exclusive := by
    have held : state.Critical .main := ⟨i, mainEq⟩
    apply counting.exclusive.release held
    · simp [State.Critical]
    · intro other apart
      cases other with
      | main => exact absurd rfl apart
      | worker other => simp [State.Critical]
  sharedData := rfl
  inRange := by
    have inRange := counting.inRange
    rw [mainEq] at inRange
    exact Nat.succ_le_of_lt inRange
  absent other := by
    have absent := counting.absent other
    rw [mainEq] at absent
    simpa [Main.Creates] using absent
  joined := nofun
  left other exited := by
    have early := counting.left other (by simpa using exited)
    rw [counting.sharedData, mainEq] at early
    exact Nat.le_succ_of_le early
  asleep other waiting := absurd waiting (Worker.wake_ne_waiting _)

theorem mainStep (counting : Counting iterations state)
    (stepped : mainStep iterations state = some after) : Counting iterations after := by
  cases mainEq : state.main with
  | create t =>
      simp only [Broadcast.mainStep, mainEq] at stepped
      split at stepped
      · rename_i inside
        cases stepped
        exact counting.createStep mainEq inside
      · rename_i all
        cases stepped
        apply counting.advance
        · simp [mainEq]
        · exact nofun
        · rw [mainEq]
          rfl
        · exact Nat.zero_le iterations
        · intro thread
          have small := thread.isLt
          rw [mainEq]
          exact iff_of_false nofun (by rw [Main.Creates]; omega)
        · exact nofun
  | iterate i =>
      have advanced := counting.iterateStep mainEq
      simp only [Broadcast.mainStep, mainEq] at stepped
      split at stepped
      · rename_i more
        rw [if_pos more] at advanced
        cases stepped
        exact advanced
      · rename_i done
        rw [if_neg done] at advanced
        cases stepped
        exact advanced
  | lock i =>
      simp only [Broadcast.mainStep, mainEq] at stepped
      obtain ⟨mutex, acquired, rfl⟩ := Option.map_eq_some_iff.mp stepped
      obtain ⟨free, rfl⟩ := acquire_eq_some.mp acquired
      exact counting.lockStep mainEq free
  | critical i =>
      simp only [Broadcast.mainStep, mainEq] at stepped
      cases stepped
      exact counting.updateStep mainEq
  | join t =>
      exact counting.joinStep mainEq stepped
  | exited =>
      simp only [Broadcast.mainStep, mainEq] at stepped
      cases stepped

end Counting

/-- The invariant holds in every state of every run. -/
theorem reachable_counting (reachable : Reachable (step iterations) (initial numThreads) state) :
    Counting iterations state := by
  apply reachable.invariant (Counting.initial numThreads iterations)
  intro state action after counting stepped
  cases action with
  | move thread =>
      cases thread with
      | main => exact counting.mainStep stepped
      | worker thread => exact counting.workerStep stepped
  | wake thread =>
      simp only [step] at stepped
      split at stepped
      · rename_i waiting
        cases stepped
        exact counting.wake waiting
      · cases stepped

/-! ## Progress -/

/-- `main` and all threads have ended. -/
def State.Done (state : State numThreads) : Prop :=
  state.main = .exited ∧ ∀ thread, state.worker thread = .exited

/-- Some thread can take a step without a spurious wakeup. -/
def Moves (iterations : Nat) (state : State numThreads) : Prop :=
  ∃ thread after, step iterations state (.move thread) = some after

/-- A thread that holds the mutex can go on. -/
theorem moves_of_critical (thread : Thread numThreads) (critical : state.Critical thread) :
    Moves iterations state := by
  cases thread with
  | main =>
      obtain ⟨i, mainEq⟩ := critical
      refine ⟨.main, ?_⟩
      simp [step, mainStep, mainEq]
  | worker thread =>
      have workerEq : state.worker thread = .running .critical := critical
      refine ⟨.worker thread, ?_⟩
      simp only [step, workerStep, workerEq]
      split
      · exact ⟨_, rfl⟩
      · exact ⟨_, rfl⟩

namespace Counting

/-- Once the updates are finished nobody waits. -/
theorem not_waiting (counting : Counting iterations state) (finished : state.main.Finished)
    (thread : Fin numThreads) : state.worker thread ≠ .running .waiting := by
  intro waiting
  have short := counting.asleep thread waiting
  rw [counting.sharedData] at short
  cases mainEq : state.main with
  | join t =>
      rw [mainEq] at short
      exact Nat.lt_irrefl _ short
  | exited =>
      rw [mainEq] at short
      exact Nat.lt_irrefl _ short
  | create t | iterate i | lock i | critical i =>
      rw [mainEq] at finished
      cases finished

/-- A thread that `main` waits for can take the mutex when it is free. -/
theorem moves_of_joining (counting : Counting iterations state) {t : Nat}
    (mainEq : state.main = .join t) (free : state.mutex = none) (inside : t < numThreads) :
    Moves iterations state := by
  have finished : state.main.Finished := by
    rw [mainEq]
    trivial
  have runs (position : Position) (ready : position = .lock ∨ position = .woken)
      (workerEq : state.worker ⟨t, inside⟩ = .running position) : Moves iterations state := by
    refine ⟨.worker ⟨t, inside⟩, ?_⟩
    rcases ready with rfl | rfl <;> simp [step, Broadcast.workerStep, workerEq, free, acquire]
  cases workerEq : state.worker ⟨t, inside⟩ with
  | absent =>
      have creates := (counting.absent _).mp workerEq
      rw [mainEq] at creates
      cases creates
  | running position =>
      cases position with
      | lock => exact runs .lock (Or.inl rfl) workerEq
      | critical => exact moves_of_critical (.worker ⟨t, inside⟩) workerEq
      | waiting => exact absurd workerEq (counting.not_waiting finished _)
      | woken => exact runs .woken (Or.inr rfl) workerEq
  | exited =>
      refine ⟨.main, ?_⟩
      simp [step, Broadcast.mainStep, mainEq, inside, workerEq]

/-- No state before the end is stuck. -/
theorem moves (counting : Counting iterations state) (running : ¬state.Done) :
    Moves iterations state := by
  cases mutexEq : state.mutex with
  | some holder => exact moves_of_critical holder ((counting.exclusive holder).mpr mutexEq)
  | none =>
      cases mainEq : state.main with
      | create t =>
          refine ⟨.main, ?_⟩
          by_cases inside : t < numThreads <;> simp [step, Broadcast.mainStep, mainEq, inside]
      | iterate i =>
          refine ⟨.main, ?_⟩
          by_cases more : i < iterations <;> simp [step, Broadcast.mainStep, mainEq, more]
      | lock i =>
          refine ⟨.main, ?_⟩
          simp [step, Broadcast.mainStep, mainEq, mutexEq, acquire]
      | critical i => exact moves_of_critical .main ⟨i, mainEq⟩
      | join t =>
          by_cases inside : t < numThreads
          · exact counting.moves_of_joining mainEq mutexEq inside
          · refine ⟨.main, ?_⟩
            simp [step, Broadcast.mainStep, mainEq, inside]
      | exited =>
          refine absurd ⟨mainEq, ?_⟩ running
          intro thread
          apply counting.joined thread
          rw [mainEq]
          trivial

end Counting

/-! ## The whole program -/

/-- What the program promises in each of its states. -/
structure Released (iterations : Nat) (state : State numThreads) : Prop where
  /-- No thread has left its loop before the count was complete. -/
  notEarly : ∀ thread, state.worker thread = .exited → iterations ≤ state.sharedData
  /-- After the last update nobody waits without a wakeup, now or later. -/
  awake : state.main.Finished → ∀ later, Reachable (step iterations) state later →
    ∀ thread, later.worker thread ≠ .running .waiting
  /-- The program is not stuck before it is done, also if nobody wakes up without a
  broadcast. -/
  moves : ¬state.Done → Moves iterations state

/-- Only `main` changes where it is. -/
theorem workerStep_main (stepped : workerStep iterations thread state = some after) :
    after.main = state.main := by
  rcases workerStep_cases stepped with ⟨_, _, _, _, rfl⟩ | ⟨_, ⟨_, rfl⟩ | ⟨_, rfl⟩⟩
  · rfl
  · rfl
  · rfl

/-- `main` stays finished. -/
theorem finished_step {action : Action numThreads} (finished : state.main.Finished)
    (stepped : step iterations state action = some after) : after.main.Finished := by
  cases action with
  | move mover =>
      cases mover with
      | main =>
          cases mainEq : state.main with
          | join t =>
              simp only [step, mainStep, mainEq] at stepped
              split at stepped
              · split at stepped
                · cases stepped
                  trivial
                · cases stepped
              · cases stepped
                trivial
          | exited =>
              simp only [step, mainStep, mainEq] at stepped
              cases stepped
          | create t | iterate i | lock i | critical i =>
              rw [mainEq] at finished
              cases finished
      | worker thread =>
          rw [workerStep_main stepped]
          exact finished
  | wake thread =>
      simp only [step] at stepped
      split at stepped
      · cases stepped
        exact finished
      · cases stepped

/-- One thread waits before the only update, and is woken by it. -/
def wokenSchedule : List (Action 1) :=
  [.move .main, .move .main, .move (.worker 0), .move (.worker 0), .move .main, .move .main,
    .move .main, .move .main]

/-- A broadcast releases every waiter, for every number of threads and of
iterations. -/
theorem reachable_released (reachable : Reachable (step iterations) (initial numThreads) state) :
    Released iterations state := by
  have counting := reachable_counting reachable
  constructor
  · exact counting.left
  · intro finished later more thread
    have stays := more.invariant finished fun _ _ _ finished stepped =>
      finished_step finished stepped
    exact (reachable_counting (reachable.trans more)).not_waiting stays thread
  · exact counting.moves

theorem wokenThread_released :
    ∃ state, Reachable (step 1) (initial 1) state ∧ state.worker 0 = .running .woken ∧
      state.main = .join 0 ∧ Released 1 state := by
  have reachable : Reachable (step 1) (initial 1) _ :=
    reachable_of_exec (show exec (step 1) (initial 1) wokenSchedule = some _ from rfl)
  exact ⟨_, reachable, rfl, rfl, reachable_released reachable⟩

end CExamples.PthreadCondition.Broadcast
