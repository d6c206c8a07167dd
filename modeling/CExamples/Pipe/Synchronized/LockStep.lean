import CExamples.Pipe.Synchronized.Core

/-!
# Lock step through the synchronized pipe

The values that the semaphores start with bound how far the parent reads ahead of
the posts and how far the child writes ahead of the acknowledgements.  From 0 and
1 the processes would be in lock step.  But the calls of `sem_open` repeat
`O_CREAT`, which is taken for the mode, so the permissions are taken for the
value, and both semaphores start at 420: the parent reads at once.
-/

namespace CExamples.Pipe.Synchronized

open CExamples.Transition
open CExamples.Word
open CExamples.Pipe.Reliable (Caller Short)

/-- The parent reads only posted frames, and at most two of the frames that were
written are not acknowledged. -/
structure LockStep (state : State) : Prop where
  reads : state.begun ≤ state.posted
  writes : state.written ≤ state.acknowledged + 2

/-! ## Bounds from the initial values -/

/-- The frames whose reading the parent is free to begin. -/
def Parent.admitted : Parent → Nat
  | .readLength => 1
  | _ => 0

/-- The frames that the child has written and not waited for. -/
def Child.unwaited : Child → Nat
  | .post _ => 1
  | .wait _ => 1
  | _ => 0

/-- The counts of the frames against the counters of the semaphores, which started
at `semParent` and `semChild`. -/
structure Counted (semParent semChild : Nat) (state : State) : Prop where
  reads : state.begun + state.semParent + state.parent.admitted ≤ state.posted + semParent
  writes : state.written + state.semChild =
    state.acknowledged + semChild + state.child.unwaited

/-- The child after it has dealt with the next letter. -/
def Child.resume : Outcome UInt8 → Child
  | .send word file => .writeLength word (.loop file)
  | .sendLast word => .writeLength word .lastWord
  | .finish => .writeLength [] .terminator
  | .read file word => .reading file word
  | .refuse => .failed

/-- A step at `fgetc`. -/
theorem childStep_reading {capacity : Nat} {state : State} {file word : List UInt8}
    (childEq : state.child = .reading file word) :
    childStep capacity state = some { state with
      child := .resume (readNext isDelimiter maxWordLength file word) } := by
  rw [childStep, childEq]
  cases file with
  | nil =>
      simp only [readNext]
      split <;> rfl
  | cons ch file =>
      simp only [readNext]
      split
      · split <;> rfl
      · split <;> rfl

namespace Counted

variable {semParent semChild : Nat} {state next : State}

theorem of_write {capacity : Nat} {data : List UInt8} {after : List UInt8 → State}
    (counted : Counted semParent semChild state) (silent : state.child.unwaited = 0)
    (stepped : write capacity state data after = some next)
    (written : ∀ pipe, Counted semParent semChild (after pipe)) :
    Counted semParent semChild next := by
  unfold write at stepped
  split at stepped
  · obtain ⟨pipe, _, rfl⟩ := Option.map_eq_some_iff.mp stepped
    exact written pipe
  · cases stepped
    have writes := counted.writes
    rw [silent] at writes
    exact ⟨counted.reads, writes⟩

theorem childStep {capacity : Nat} (counted : Counted semParent semChild state)
    (stepped : Synchronized.childStep capacity state = some next) :
    Counted semParent semChild next := by
  have reads := counted.reads
  have writes := counted.writes
  have move {child : Child} (same : child.unwaited = state.child.unwaited) :
      Counted semParent semChild { state with child := child } :=
    ⟨reads, by rw [same]; exact writes⟩
  cases childEq : state.child with
  | start file =>
      simp only [Synchronized.childStep, childEq] at stepped
      cases stepped
      exact move (by rw [childEq]; rfl)
  | reading file word =>
      rw [childStep_reading childEq] at stepped
      cases stepped
      apply move
      rw [childEq]
      cases readNext isDelimiter maxWordLength file word with
      | send sent rest => rfl
      | sendLast sent => rfl
      | finish => rfl
      | read rest held => rfl
      | refuse => rfl
  | writeLength word caller =>
      simp only [Synchronized.childStep, childEq] at stepped
      rw [childEq] at writes
      apply counted.of_write (by rw [childEq]; rfl) stepped
      intro pipe
      split
      · exact ⟨reads, writes⟩
      · constructor
        · exact reads
        · simp only [Child.unwaited] at writes ⊢
          omega
  | writeWord word caller =>
      simp only [Synchronized.childStep, childEq] at stepped
      rw [childEq] at writes
      apply counted.of_write (by rw [childEq]; rfl) stepped
      intro pipe
      constructor
      · exact reads
      · simp only [Child.unwaited] at writes ⊢
        omega
  | post caller =>
      simp only [Synchronized.childStep, childEq] at stepped
      cases stepped
      rw [childEq] at writes
      constructor
      · simp only
        omega
      · exact writes
  | wait caller =>
      simp only [Synchronized.childStep, childEq] at stepped
      obtain ⟨count, waited, rfl⟩ := Option.map_eq_some_iff.mp stepped
      rw [semWait_eq_some] at waited
      rw [childEq, waited] at writes
      have silent : (afterSend caller).unwaited = 0 := by
        cases caller <;> rfl
      constructor
      · exact reads
      · simp only [Child.unwaited] at writes
        simp only [silent]
        omega
  | closing =>
      simp only [Synchronized.childStep, childEq] at stepped
      cases stepped
      exact move (by rw [childEq]; rfl)
  | exited =>
      simp only [Synchronized.childStep, childEq] at stepped
      cases stepped
  | failed =>
      simp only [Synchronized.childStep, childEq] at stepped
      cases stepped

theorem parentStep (counted : Counted semParent semChild state)
    (stepped : Synchronized.parentStep state = some next) : Counted semParent semChild next := by
  have reads := counted.reads
  have writes := counted.writes
  cases parentEq : state.parent with
  | wait =>
      simp only [Synchronized.parentStep, parentEq] at stepped
      obtain ⟨count, waited, rfl⟩ := Option.map_eq_some_iff.mp stepped
      rw [semWait_eq_some] at waited
      rw [parentEq, waited] at reads
      constructor
      · simp only [Parent.admitted] at reads ⊢
        omega
      · exact writes
  | readLength =>
      simp only [Synchronized.parentStep, parentEq, read] at stepped
      obtain ⟨⟨got, pipe⟩, pulled, rfl⟩ := Option.map_eq_some_iff.mp stepped
      obtain ⟨_, rfl, _⟩ := pullUpTo_eq_some.mp pulled
      have atMost := List.length_take_le 1 state.pipe
      rw [parentEq] at reads
      simp only [Parent.admitted] at reads
      constructor
      · simp only
        split
        · simp only [Parent.admitted]
          omega
        · simp only [Parent.admitted]
          omega
      · exact writes
  | readWord =>
      simp only [Synchronized.parentStep, parentEq] at stepped
      obtain ⟨_, _, rfl⟩ := Option.map_eq_some_iff.mp stepped
      rw [parentEq] at reads
      exact ⟨reads, writes⟩
  | post =>
      simp only [Synchronized.parentStep, parentEq] at stepped
      cases stepped
      rw [parentEq] at reads
      constructor
      · exact reads
      · simp only
        omega
  | exited =>
      simp only [Synchronized.parentStep, parentEq] at stepped
      cases stepped
  | _ =>
      simp only [Synchronized.parentStep, parentEq] at stepped
      cases stepped
      rw [parentEq] at reads
      exact ⟨reads, writes⟩

end Counted

theorem reachable_counted {capacity semParent semChild : Nat} {file word : List UInt8}
    {length : UInt8} {state : State}
    (reachable : Reachable (step capacity) (initial semParent semChild file length word) state) :
    Counted semParent semChild state := by
  apply reachable.invariant
  · constructor
    · simp [initial, Parent.admitted]
    · simp [initial, Child.unwaited]
  · intro before action after counted stepped
    cases action with
    | child => exact counted.childStep stepped
    | parent => exact counted.parentStep stepped

/-- From semaphores at 0 and 1 the processes are in lock step. -/
theorem reachable_lockStep {capacity : Nat} {file word : List UInt8} {length : UInt8}
    {state : State} (reachable : Reachable (step capacity) (initial 0 1 file length word) state) :
    LockStep state := by
  have counted := reachable_counted reachable
  have reads := counted.reads
  have writes := counted.writes
  have unwaited : state.child.unwaited ≤ 1 := by
    cases state.child <;> simp [Child.unwaited]
  constructor
  · omega
  · omega

/-! ## The values that the semaphores get -/

-- The permissions, in place of 0 and 1.
example : openParent = 420 ∧ openChild = 420 :=
  ⟨rfl, rfl⟩

theorem reachable_of_childStep {capacity : Nat} {state next : State}
    (stepped : childStep capacity state = some next) : Reachable (step capacity) state next := by
  have moved : step capacity state .child = some next := stepped
  exact Reachable.single moved

/-- On a file of short words the child comes to its first frame. -/
theorem exists_writeLength {capacity : Nat} {file word : List UInt8} {state : State}
    (childEq : state.child = .reading file word)
    (letters : ∀ letter ∈ word, isDelimiter letter = false)
    (short : ∀ other ∈ wordsOf (word ++ file), other.length ≤ 254) :
    ∃ first caller,
      Reachable (step capacity) state { state with child := .writeLength first caller } := by
  induction file generalizing word state with
  | nil =>
      have first := @reachable_of_childStep capacity state _ (childStep_reading childEq)
      have reads := reads_readNext isDelimiter maxWordLength [] word
      generalize readNext isDelimiter maxWordLength [] word = outcome at reads first
      cases reads with
      | sendLast nonempty => exact ⟨word, .lastWord, first⟩
      | finish => exact ⟨[], .terminator, first⟩
  | cons ch file ih =>
      have first := @reachable_of_childStep capacity state _ (childStep_reading childEq)
      have reads := reads_readNext isDelimiter maxWordLength (ch :: file) word
      generalize readNext isDelimiter maxWordLength (ch :: file) word = outcome at reads first
      have accepted := reads.accepted letters fun other member =>
        (short other member).trans (by decide)
      -- The rest of the file is read from the state after this letter.
      have continues {kept : List UInt8} (read : outcome = .read file kept) :
          ∃ first caller,
            Reachable (step capacity) state { state with child := .writeLength first caller } := by
        subst read
        have same := reads.words_eq letters accepted
        obtain ⟨next, caller, rest⟩ := @ih kept { state with child := .reading file kept } rfl
          (reads.letters letters) (by rw [wordsOf] at short ⊢; rwa [← same] at short)
        exact ⟨next, caller, first.trans rest⟩
      cases reads with
      | send delimits nonempty => exact ⟨word, .loop file, first⟩
      | skip delimits => exact continues rfl
      | refuse => exact absurd rfl accepted
      | collect ordinary room => exact continues rfl

/-- The parent begins to read the first frame before it is posted. -/
theorem exists_begun {capacity : Nat} {file word : List UInt8} {length : UInt8}
    (short : Short file) (large : 512 ≤ capacity) :
    ∃ state, Reachable (step capacity) (initial openParent openChild file length word) state ∧
      state.posted = 0 ∧ state.begun = 1 := by
  have opening : exec (step capacity) (initial openParent openChild file length word)
      [.child, .parent, .parent] =
        some ⟨.reading file [], .readLength, [], 419, 420, length, word, [], 0, 0, 0, 0⟩ := rfl
  obtain ⟨first, caller, reading⟩ := @exists_writeLength capacity file []
    ⟨.reading file [], .readLength, [], 419, 420, length, word, [], 0, 0, 0, 0⟩ rfl nofun short
  have room : 1 ≤ capacity := by omega
  have ending : ∃ state, exec (step capacity)
      ⟨.writeLength first caller, .readLength, [], 419, 420, length, word, [], 0, 0, 0, 0⟩
      [.child, .parent] = some state ∧ state.posted = 0 ∧ state.begun = 1 := by
    by_cases nonempty : first.length > 0
    · simp [exec, step, childStep, parentStep, write, read, State.hasReader, pushWhole, pullUpTo,
        room, nonempty]
    · simp [exec, step, childStep, parentStep, write, read, State.hasReader, pushWhole, pullUpTo,
        room, nonempty]
  obtain ⟨state, run, posted, begun⟩ := ending
  exact ⟨state, ((reachable_of_exec opening).trans reading).trans (reachable_of_exec run),
    posted, begun⟩

/-- On no file do the semaphores that `main` opens keep the processes in lock
step. -/
theorem main_notLockStep {capacity : Nat} {file word : List UInt8} {length : UInt8}
    (short : Short file) (large : 512 ≤ capacity) :
    ¬∀ state, Reachable (step capacity) (initial openParent openChild file length word) state →
      LockStep state := by
  intro always
  obtain ⟨state, reachable, posted, begun⟩ := exists_begun short large
  have reads := (always state reachable).reads
  omega

theorem oneWord_notLockStep :
    ¬∀ state, Reachable (step 512) (initial openParent openChild [97] 0 []) state →
      LockStep state :=
  main_notLockStep (by rw [Short]; decide) (Nat.le_refl 512)

/-- The parent reads the length of the end of an empty file before it is posted. -/
theorem emptyFile_begins :
    ∃ state, Reachable (step 512) (initial openParent openChild [] 0 []) state ∧
      state.posted < state.begun := by
  have run : exec (step 512) (initial openParent openChild [] 0 [])
      [.child, .child, .child, .parent, .parent, .parent] =
        some ⟨.post .terminator, .closing, [], 419, 420, 0, [], [], 1, 0, 1, 0⟩ := by decide
  exact ⟨_, reachable_of_exec run, by decide⟩

end CExamples.Pipe.Synchronized
