import CExamples.Pipe.Reliable.Progress
import CExamples.Transition.Inevitable

/-!
# Semaphores left over in the reliable pipe

A run that is killed before it unlinks the semaphores leaves them with the values
they had, and the next run opens them as they are.  The child waits once more than
the parent posts, so it needs one acknowledgement to start with: from any values
with `sem_child` at least 1 the run prints the words of the file and ends, and from
any values with `sem_child` 0 it never ends.
-/

namespace CExamples.Pipe.Reliable

open CExamples.Transition
open CExamples.Word

/-- The values of `sem_parent` and `sem_child` that killed runs can leave behind. -/
inductive LeftBehind (capacity : Nat) : Nat → Nat → Prop
  | killed {file : List UInt8} {state : State}
      (reachable : Reachable (step capacity) (initial 0 1 file) state) :
      LeftBehind capacity state.semParent state.semChild
  | again {semParent semChild : Nat} {file : List UInt8} {state : State}
      (before : LeftBehind capacity semParent semChild)
      (reachable : Reachable (step capacity) (initial semParent semChild file) state) :
      LeftBehind capacity state.semParent state.semChild

/-- Both processes have ended, and all words were printed. -/
structure Finished (file : List UInt8) (state : State) : Prop where
  child : state.child = .exited
  parent : state.parent = .exited
  printed : state.printed = (wordsOf file).map line

/-- What the run on `file` promises in each of its states. -/
structure Survives (capacity : Nat) (file : List UInt8) (state : State) : Prop where
  /-- The printed lines are those of the first words. -/
  inOrder : state.printed <+: (wordsOf file).map line
  /-- The run is stuck only when it has finished. -/
  notStuck : Stuck (step capacity) state → Finished file state
  /-- Every run finishes. -/
  ends : Inevitably (step capacity) (Finished file) state

/-! ## How much is left to do -/

/-- What is left to do after a call of `send_word`. -/
def Caller.work : Caller → Nat
  | .loop file => 7 * file.length + 6
  | .lastWord => 5
  | .terminator => 1

/-- What is left to do for the child. -/
def Child.work : Child → Nat
  | .start file => 7 * file.length + 7
  | .reading file word => 7 * file.length + if word.length > 0 then word.length + 10 else 6
  | .writeLength word caller => word.length + 4 + caller.work
  | .writeWord _ remaining caller => remaining.length + 3 + caller.work
  | .post _ caller => 2 + caller.work
  | .wait caller => 1 + caller.work
  | .closing => 1
  | .exited => 0
  | .failed => 0

/-- What is left to do for the parent before its next read. -/
def Parent.work : Parent → Nat
  | .start => 3
  | .wait => 2
  | .readLength => 1
  | .readWord _ _ => 1
  | .print _ _ => 4
  | .post => 3
  | .closing => 1
  | .exited => 0

/-- What is left to do for both.  A byte costs more to write than to read. -/
def State.work (state : State) : Nat :=
  6 * state.child.work + 5 * state.pipe.length + state.parent.work

/-- A write uses up work for each byte it puts into the pipe. -/
theorem write_work {capacity count : Nat} {state next : State} {data : List UInt8}
    {after : List UInt8 → Child} (stepped : write capacity state data count after = some next)
    (alive : 0 < state.child.work)
    (works : ∀ remaining, remaining.length < data.length →
      (after remaining).work + data.length ≤ state.child.work + remaining.length) :
    next.work < state.work := by
  unfold write at stepped
  split at stepped
  · obtain ⟨⟨pipe, remaining⟩, pushed, rfl⟩ := Option.map_eq_some_iff.mp stepped
    have lengths := congrArg List.length (append_of_push pushed)
    have shorter := (suffix_of_push pushed).2
    have bound := works remaining shorter
    simp only [List.length_append] at lengths
    simp only [State.work]
    omega
  · cases stepped
    have failed : Child.failed.work = 0 := rfl
    simp only [State.work, failed]
    omega

/-- The child has moved on without the pipe. -/
theorem work_lt_of_child {state next : State} (less : next.child.work < state.child.work)
    (pipe : next.pipe = state.pipe) (parent : next.parent = state.parent) :
    next.work < state.work := by
  rw [State.work, State.work, pipe, parent]
  omega

/-- The next letter uses up work. -/
theorem reading_work {limit : Nat} {state : State} {file word : List UInt8}
    {outcome : Outcome UInt8} (childEq : state.child = .reading file word)
    (reads : Reads isDelimiter limit file word outcome) :
    (state.resume outcome).work < state.work := by
  cases reads with
  | send delimits nonempty =>
      refine work_lt_of_child ?_ rfl rfl
      have positive := List.length_pos_iff.mpr nonempty
      simp only [State.resume, State.child_sendWord, childEq, Child.work, Caller.work, gt_iff_lt,
        if_pos positive, List.length_cons]
      omega
  | skip delimits =>
      refine work_lt_of_child ?_ rfl rfl
      simp [State.resume, childEq, Child.work]
  | refuse ordinary full =>
      refine work_lt_of_child ?_ rfl rfl
      simp only [State.resume, childEq, Child.work, List.length_cons]
      omega
  | collect ordinary room =>
      refine work_lt_of_child ?_ rfl rfl
      simp only [State.resume, childEq, Child.work, List.length_cons, List.length_append,
        List.length_nil]
      split <;> split <;> omega
  | sendLast nonempty =>
      refine work_lt_of_child ?_ rfl rfl
      have positive := List.length_pos_iff.mpr nonempty
      simp [State.resume, childEq, Child.work, Caller.work, positive]
  | finish =>
      refine work_lt_of_child ?_ rfl rfl
      simp [State.resume, childEq, Child.work, Caller.work]

/-- A step of the child uses up work. -/
theorem childStep_work {capacity count : Nat} {state next : State}
    (stepped : childStep capacity state count = some next) : next.work < state.work := by
  cases childStep_moves stepped with
  | opens childEq =>
      refine work_lt_of_child ?_ rfl rfl
      simp [childEq, Child.work]
  | @reads file word childEq =>
      exact reading_work childEq (reads_readNext isDelimiter maxWordLength file word)
  | writesLength childEq written =>
      apply write_work written
      · simp only [childEq, Child.work]
        omega
      · intro remaining shorter
        rw [List.length_singleton] at shorter ⊢
        split <;> simp only [childEq, Child.work] <;> omega
  | writesWord childEq written =>
      apply write_work written
      · simp only [childEq, Child.work]
        omega
      · intro left shorter
        split <;> simp only [childEq, Child.work] <;> omega
  | posts childEq =>
      refine work_lt_of_child ?_ rfl rfl
      simp only [childEq, Child.work]
      omega
  | @waits caller semChild childEq waited =>
      refine work_lt_of_child ?_ rfl rfl
      cases caller <;> simp [childEq, Caller.next, Child.work, Caller.work]
  | exits childEq =>
      refine work_lt_of_child ?_ rfl rfl
      simp [childEq, Child.work]

/-- A read uses up work unless it meets the end of the pipe. -/
theorem read_work {wanted count : Nat} {state next : State} {after : List UInt8 → Parent}
    (stepped : read state wanted count after = some next)
    (writer : state.pipe = [] → state.hasWriter = true)
    (works : ∀ got, (after got).work < state.parent.work + 5) : next.work < state.work := by
  unfold read at stepped
  split at stepped
  · rename_i ends
    rw [writer ends.1] at ends
    cases ends.2
  · obtain ⟨⟨got, pipe⟩, pulled, rfl⟩ := Option.map_eq_some_iff.mp stepped
    obtain ⟨split, nonempty, _⟩ := append_of_pull pulled
    have lengths := congrArg List.length split
    have positive := List.length_pos_iff.mpr nonempty
    have bound := works got
    rw [List.length_append] at lengths
    simp only [State.work]
    omega

/-- The parent has moved on without the pipe. -/
theorem work_lt_of_parent {state next : State} (less : next.parent.work < state.parent.work)
    (pipe : next.pipe = state.pipe) (child : next.child = state.child) :
    next.work < state.work := by
  rw [State.work, State.work, pipe, child]
  omega

/-- A step of the parent uses up work. -/
theorem parentStep_work {count : Nat} {state next : State}
    (stepped : parentStep state count = some next)
    (writer : state.parent ≠ .exited → state.ParentBlocked → state.hasWriter = true) :
    next.work < state.work := by
  have full (reads : state.pipe = [] → state.ParentBlocked) (running : state.parent ≠ .exited)
      (empty : state.pipe = []) : state.hasWriter = true := writer running (reads empty)
  cases parentStep_moves stepped with
  | readsLength parentEq taken =>
      apply read_work taken
      · apply full
        · simp [State.ParentBlocked, parentEq]
        · simp [parentEq]
      · intro got
        simp only [parentEq]
        split <;> simp [Parent.work]
  | readsWord parentEq taken =>
      apply read_work taken
      · apply full
        · simp [State.ParentBlocked, parentEq]
        · simp [parentEq]
      · intro more
        simp only [parentEq]
        split <;> simp [Parent.work]
  | opens parentEq | waits parentEq | prints parentEq | posts parentEq | exits parentEq =>
      exact work_lt_of_parent (by simp [parentEq, Parent.work]) rfl rfl

namespace Flowing

variable {startParent startChild : Nat} {file : List UInt8} {done left : List (List UInt8)}
  {state : State} {capacity : Nat}

/-- A parent that reads from an empty pipe has a child that will write. -/
theorem hasWriter (flowing : Flowing startParent startChild file done left state)
    (running : state.parent ≠ .exited) (blocked : state.ParentBlocked) :
    state.hasWriter = true := by
  have fine := flowing.fine
  have alive : state.child ≠ .exited := fun childEq =>
    running (flowing.blocked_exited blocked childEq)
  have whole : state.child ≠ .failed := by
    intro childEq
    rw [childEq] at fine
    exact fine
  simp [State.hasWriter, alive, whole]

/-- When both have ended all words were printed. -/
theorem finished (flowing : Flowing startParent startChild file done left state)
    (child : state.child = .exited) (parent : state.parent = .exited) : Finished file state := by
  have reads := flowing.reads
  rw [parent] at reads
  refine ⟨child, parent, ?_⟩
  rw [flowing.printed, flowing.words, reads.1, List.append_nil]

/-- Every step on the way uses up work. -/
theorem descends (fits : Fits file) (acknowledged : 1 ≤ startChild) (large : 512 ≤ capacity) :
    Descends (step capacity)
      (fun state => ∃ done left, Flowing startParent startChild file done left state)
      (Finished file) State.work where
  enabled := by
    rintro state ⟨done, left, flowing⟩ unfinished
    have running : ¬(state.child = .exited ∧ state.parent = .exited) := fun ended =>
      unfinished (flowing.finished ended.1 ended.2)
    obtain ⟨action, next, stepped, _⟩ := flowing.moves fits acknowledged large running
    exact ⟨action, next, stepped⟩
  keeps := by
    rintro state action next ⟨done, left, flowing⟩ _ stepped
    exact step_flowing stepped flowing fits
  decreases := by
    rintro state action next ⟨done, left, flowing⟩ _ stepped
    cases action with
    | child count => exact childStep_work stepped
    | parent count => exact parentStep_work stepped flowing.hasWriter

end Flowing

/-! ## From which values the run survives -/

/-- With an acknowledgement to start with, every run prints the words and ends. -/
theorem survives_of_acknowledged {capacity startParent startChild : Nat} {file : List UInt8}
    {state : State} (fits : Fits file) (large : 512 ≤ capacity) (acknowledged : 1 ≤ startChild)
    (reachable : Reachable (step capacity) (initial startParent startChild file) state) :
    Survives capacity file state := by
  obtain ⟨done, left, flowing⟩ := reachable_flowing fits reachable
  have ends : Inevitably (step capacity) (Finished file) state :=
    (Flowing.descends fits acknowledged large).inevitably ⟨done, left, flowing⟩
  refine ⟨?_, ends.of_stuck, ends⟩
  rw [flowing.printed, flowing.words, List.map_append]
  exact List.prefix_append _ _

/-- Without an acknowledgement to start with, the child never ends. -/
theorem not_finished_of_zero {capacity startParent : Nat} {file : List UInt8} {state : State}
    (fits : Fits file)
    (reachable : Reachable (step capacity) (initial startParent 0 file) state) :
    ¬Finished file state := by
  obtain ⟨done, left, flowing⟩ := reachable_flowing fits reachable
  intro finished
  have counts := flowing.childCount
  rw [finished.child] at counts
  simp only [Child.unwaited, Child.unposted, List.length_nil] at counts
  omega

/-- A schedule in which the run is killed while the parent prints the word. -/
def killedSchedule : List Action :=
  [.child 0, .child 0, .child 0, .child 1, .child 1, .child 0, .child 0, .parent 0, .parent 0]

/-- A schedule of the next run on an empty file. -/
def stuckSchedule : List Action :=
  [.child 0, .child 0, .child 1, .child 0, .parent 0, .parent 0, .parent 1, .parent 0]

/-- Which values of the semaphores a run on a file of short words survives. -/
theorem survives_iff {capacity semParent semChild : Nat} {file : List UInt8}
    (short : Short file) (large : 512 ≤ capacity) :
    (∀ state, Reachable (step capacity) (initial semParent semChild file) state →
      Survives capacity file state) ↔ 1 ≤ semChild := by
  constructor
  · intro survives
    by_contra none
    have zero : semChild = 0 := by omega
    subst zero
    obtain ⟨state, reachable, finished⟩ :=
      (survives _ (Reachable.refl _ _)).ends.exists_reachable
    exact not_finished_of_zero short.fits reachable finished
  · exact fun acknowledged state reachable =>
      survives_of_acknowledged short.fits large acknowledged reachable

theorem twoAcknowledgements_survives :
    Short [97, 98] ∧
      ∀ state, Reachable (step 512) (initial 0 2 [97, 98]) state →
        Survives 512 [97, 98] state := by
  have short : Short [97, 98] := by
    rw [Short]
    decide
  exact ⟨short, (survives_iff short (Nat.le_refl 512)).mpr (by decide)⟩

/-- A run that is killed before its first acknowledgement leaves both semaphores at
zero, and the child of the next run waits for ever. -/
theorem leftBehind_stuck :
    LeftBehind 512 0 0 ∧ ∃ state, Reachable (step 512) (initial 0 0 []) state ∧
      Stuck (step 512) state ∧ state.child = .wait .terminator := by
  have killed : exec (step 512) (initial 0 1 [97]) killedSchedule =
      some ⟨.writeLength [] .terminator, .readLength, [1, 97], 0, 0, [], false⟩ := by decide
  have stuck : exec (step 512) (initial 0 0 []) stuckSchedule =
      some ⟨.wait .terminator, .exited, [], 0, 0, [], false⟩ := by decide
  refine ⟨LeftBehind.killed (reachable_of_exec killed), _, reachable_of_exec stuck, ?_, rfl⟩
  intro action
  cases action <;> rfl

end CExamples.Pipe.Reliable
