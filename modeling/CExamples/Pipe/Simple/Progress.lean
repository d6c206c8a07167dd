import CExamples.Pipe.Simple.Ending

/-!
# The whole run of the simple pipe

On a file whose words fit no process waits for ever: while the child cannot write,
the pipe holds something to read, and while the parent cannot read, the child is
about to write.  As every step uses up work, all runs end, with the words of the
file printed.  On any other file no run does, because the child fails at the first
word that is too long.
-/

namespace CExamples.Pipe.Simple

open CExamples.Transition
open CExamples.Word
open CExamples.Pipe.Reliable (Caller framesOf line)

/-- Both processes have ended, and all words were printed. -/
structure Finished (file : List UInt8) (state : State) : Prop where
  child : state.child = .exited
  parent : state.parent = .exited
  printed : state.printed = (wordsOf file).map line

/-- What the run on `file` promises in each of its states. -/
structure Completes (capacity : Nat) (file : List UInt8) (state : State) : Prop where
  /-- The printed lines are those of the first words. -/
  inOrder : state.printed <+: (wordsOf file).map line
  /-- The run is stuck only when it has finished. -/
  notStuck : Stuck (step capacity) state → Finished file state
  /-- Every run finishes. -/
  ends : Inevitably (step capacity) (Finished file) state

/-! ## What a step can do -/

/-- What the child is about to write. -/
def Child.data : Child → Option (List UInt8)
  | .writeLength word _ => some [UInt8.ofNat word.length]
  | .writeWord word _ => some word
  | _ => none

/-- The steps of the child. -/
inductive ChildMoves (capacity : Nat) (state : State) : State → Prop
  | opens {file : List UInt8} (childEq : state.child = .start file) :
      ChildMoves capacity state { state with child := .reading file [] }
  | reads {file word : List UInt8} (childEq : state.child = .reading file word) :
      ChildMoves capacity state { state with
        child := .resume (readNext isDelimiter maxWordLength file word) }
  | breaks {data : List UInt8} (writes : state.child.data = some data)
      (noReader : state.hasReader = false) :
      ChildMoves capacity state { state with child := .failed }
  | begins {word : List UInt8} {caller : Caller}
      (childEq : state.child = .writeLength word caller) (nonempty : word ≠ []) :
      ChildMoves capacity state { state with
        pipe := state.pipe ++ [UInt8.ofNat word.length]
        child := .writeWord word caller }
  | terminates {caller : Caller} (childEq : state.child = .writeLength [] caller) :
      ChildMoves capacity state { state with
        pipe := state.pipe ++ [0]
        child := afterSend caller
        sent := state.sent ++ [[]] }
  | sends {word : List UInt8} {caller : Caller}
      (childEq : state.child = .writeWord word caller) :
      ChildMoves capacity state { state with
        pipe := state.pipe ++ word
        child := afterSend caller
        sent := state.sent ++ [word] }
  | exits (childEq : state.child = .closing) :
      ChildMoves capacity state { state with child := .exited }

theorem write_cases {capacity : Nat} {state next : State} {data : List UInt8}
    {after : List UInt8 → State} (stepped : write capacity state data after = some next) :
    next = after (state.pipe ++ data) ∨
      state.hasReader = false ∧ next = { state with child := .failed } := by
  unfold write at stepped
  split at stepped
  · rcases Option.map_eq_some_iff.mp stepped with ⟨pipe, pushed, rfl⟩
    rcases pushWhole_eq_some.mp pushed with ⟨_, rfl⟩
    exact Or.inl rfl
  · rename_i noReader
    cases stepped
    exact Or.inr ⟨by simpa using noReader, rfl⟩

theorem childStep_moves {capacity : Nat} {state next : State}
    (stepped : childStep capacity state = some next) : ChildMoves capacity state next := by
  cases childEq : state.child with
  | start file =>
      simp only [childStep, childEq] at stepped
      cases stepped
      exact .opens childEq
  | reading file word =>
      rw [childStep_reading childEq] at stepped
      cases stepped
      exact .reads childEq
  | writeLength word caller =>
      simp only [childStep, childEq] at stepped
      rcases write_cases stepped with rfl | ⟨noReader, rfl⟩
      · cases word with
        | nil => exact .terminates childEq
        | cons letter word => exact .begins childEq (List.cons_ne_nil letter word)
      · exact .breaks (by rw [childEq]; rfl) noReader
  | writeWord word caller =>
      simp only [childStep, childEq] at stepped
      rcases write_cases stepped with rfl | ⟨noReader, rfl⟩
      · exact .sends childEq
      · exact .breaks (by rw [childEq]; rfl) noReader
  | closing =>
      simp only [childStep, childEq] at stepped
      cases stepped
      exact .exits childEq
  | exited =>
      simp only [childStep, childEq] at stepped
      cases stepped
  | failed =>
      simp only [childStep, childEq] at stepped
      cases stepped

/-- The steps of the parent. -/
inductive ParentMoves (state : State) : State → Prop
  | opens (parentEq : state.parent = .start) :
      ParentMoves state { state with parent := .readLength }
  | readsLength (parentEq : state.parent = .readLength)
      (ready : state.pipe = [] → state.hasWriter = false) :
      ParentMoves state { state with
        pipe := state.pipe.drop 1
        length := state.pipe.headD state.length
        parent := if state.pipe.headD state.length = 0 then .closing else .readWord }
  | readsWord (parentEq : state.parent = .readWord)
      (ready : state.pipe = [] → state.hasWriter = false) :
      ParentMoves state { state with
        pipe := state.pipe.drop state.length.toNat
        word := state.pipe.take state.length.toNat ++
          state.word.drop (state.pipe.take state.length.toNat).length
        parent := .print }
  | prints (parentEq : state.parent = .print) :
      ParentMoves state { state with
        word := state.word.set state.length.toNat 0
        printed := state.printed ++
          [(state.length, cString (state.word.set state.length.toNat 0))]
        parent := .readLength }
  | exits (parentEq : state.parent = .closing) :
      ParentMoves state { state with parent := .exited }

theorem parentStep_moves {state next : State} (stepped : parentStep state = some next) :
    ParentMoves state next := by
  cases parentEq : state.parent with
  | start =>
      simp only [parentStep, parentEq] at stepped
      cases stepped
      exact .opens parentEq
  | readLength =>
      simp only [parentStep, parentEq, read] at stepped
      rcases Option.map_eq_some_iff.mp stepped with ⟨⟨got, pipe⟩, pulled, rfl⟩
      rcases pullUpTo_eq_some.mp pulled with ⟨ready, rfl, rfl⟩
      have head : (state.pipe.take 1).headD state.length = state.pipe.headD state.length := by
        cases state.pipe <;> rfl
      simp only [head]
      exact .readsLength parentEq ready
  | readWord =>
      simp only [parentStep, parentEq, read] at stepped
      rcases Option.map_eq_some_iff.mp stepped with ⟨⟨got, pipe⟩, pulled, rfl⟩
      rcases pullUpTo_eq_some.mp pulled with ⟨ready, rfl, rfl⟩
      exact .readsWord parentEq ready
  | print =>
      simp only [parentStep, parentEq] at stepped
      cases stepped
      exact .prints parentEq
  | closing =>
      simp only [parentStep, parentEq] at stepped
      cases stepped
      exact .exits parentEq
  | exited =>
      simp only [parentStep, parentEq] at stepped
      cases stepped

/-! ## How much is left to do -/

/-- What is left to do after a call of `send_word`. -/
def callerWork : Caller → Nat
  | .loop file => 7 * file.length + 6
  | .lastWord => 5
  | .terminator => 1

/-- What is left to do for the child. -/
def Child.work : Child → Nat
  | .start file => 7 * file.length + 7
  | .reading file word => 7 * file.length + if word.length > 0 then word.length + 10 else 6
  | .writeLength word caller => word.length + 4 + callerWork caller
  | .writeWord word caller => word.length + 3 + callerWork caller
  | .closing => 1
  | .exited => 0
  | .failed => 0

/-- What is left to do for the parent before its next read. -/
def Parent.work : Parent → Nat
  | .start => 2
  | .readLength => 1
  | .readWord => 1
  | .print => 2
  | .closing => 1
  | .exited => 0

/-- What is left to do for both.  A byte costs more to write than to read. -/
def State.work (state : State) : Nat :=
  6 * state.child.work + 5 * state.pipe.length + state.parent.work

@[simp]
theorem work_afterSend (caller : Caller) : (afterSend caller).work = callerWork caller := by
  cases caller <;> simp [afterSend, Child.work, callerWork]

/-- The next letter uses up work. -/
theorem resume_work {file word : List UInt8} {outcome : Outcome UInt8}
    (reads : Reads isDelimiter maxWordLength file word outcome) :
    (Child.resume outcome).work < (Child.reading file word).work := by
  cases reads with
  | send delimits nonempty =>
      have positive := List.length_pos_iff.mpr nonempty
      simp only [Child.resume, Child.work, callerWork, gt_iff_lt, if_pos positive,
        List.length_cons]
      omega
  | skip delimits => simp [Child.resume, Child.work]
  | refuse ordinary full =>
      simp only [Child.resume, Child.work, List.length_cons]
      omega
  | collect ordinary room =>
      simp only [Child.resume, Child.work, List.length_cons, List.length_append,
        List.length_nil]
      split <;> split <;> omega
  | sendLast nonempty =>
      have positive := List.length_pos_iff.mpr nonempty
      simp [Child.resume, Child.work, callerWork, positive]
  | finish => simp [Child.resume, Child.work, callerWork]

/-- A child that writes has work to do. -/
theorem work_pos_of_data {child : Child} {data : List UInt8} (writes : child.data = some data) :
    0 < child.work := by
  cases child with
  | writeLength word caller =>
      rw [Child.work]
      omega
  | writeWord word caller =>
      rw [Child.work]
      omega
  | _ => cases writes

/-- A step of the child uses up work. -/
theorem childStep_work {capacity : Nat} {state next : State}
    (stepped : childStep capacity state = some next) : next.work < state.work := by
  cases childStep_moves stepped with
  | opens childEq =>
      simp only [State.work, childEq, Child.work]
      simp
  | @reads file word childEq =>
      have less := resume_work (reads_readNext isDelimiter maxWordLength file word)
      simp only [State.work, childEq]
      omega
  | breaks writes noReader =>
      have positive := work_pos_of_data writes
      have failed : Child.failed.work = 0 := rfl
      simp only [State.work, failed]
      omega
  | begins childEq nonempty =>
      simp only [State.work, childEq, Child.work, List.length_append, List.length_singleton]
      omega
  | terminates childEq =>
      simp only [State.work, childEq, work_afterSend, List.length_append, List.length_singleton]
      rw [Child.work]
      omega
  | sends childEq =>
      simp only [State.work, childEq, work_afterSend, List.length_append]
      rw [Child.work]
      omega
  | exits childEq =>
      simp only [State.work, childEq, Child.work]
      omega

namespace Faithful

variable {file : List UInt8} {done left : List (List UInt8)} {state : State}

/-- A parent that can read has something to read. -/
theorem pipe_nonempty (faithful : Faithful file done left state) (fits : Fits file)
    (reading : state.parent = .readLength ∨ state.parent = .readWord)
    (ready : state.pipe = [] → state.hasWriter = false) : state.pipe ≠ [] := by
  have holds := faithful.holds
  rcases reading with parentEq | parentEq
  · simp only [State.Holds, parentEq] at holds
    exact faithful.pipe_ne_nil holds ready
  · simp only [State.Holds, parentEq] at holds
    rcases holds with ⟨nonzero, split⟩
    intro empty
    rcases left with _ | ⟨word, rest⟩
    · rw [frames_nil, List.nil_append] at split
      have writer := (faithful.begun_cons fits split.symm).2.2
      rw [ready empty] at writer
      cases writer
    · have parts := faithful.frames_cons_eq fits split
      have nothing : word = [] := by
        have whole := parts.2
        rw [empty, eq_comm, List.append_eq_nil_iff] at whole
        exact whole.1
      rw [nothing] at parts
      exact nonzero (UInt8.toNat_inj.mp parts.1)

/-- A step of the parent uses up work. -/
theorem parentStep_work {next : State} (faithful : Faithful file done left state)
    (fits : Fits file) (stepped : Simple.parentStep state = some next) :
    next.work < state.work := by
  cases parentStep_moves stepped with
  | opens parentEq =>
      simp only [State.work, parentEq, Parent.work]
      omega
  | readsLength parentEq ready =>
      have positive := List.length_pos_iff.mpr
        (faithful.pipe_nonempty fits (Or.inl parentEq) ready)
      simp only [State.work, parentEq, List.length_drop]
      split
      · simp only [Parent.work]
        omega
      · simp only [Parent.work]
        omega
  | readsWord parentEq ready =>
      have positive := List.length_pos_iff.mpr
        (faithful.pipe_nonempty fits (Or.inr parentEq) ready)
      have holds := faithful.holds
      simp only [State.Holds, parentEq] at holds
      have wanted : 0 < state.length.toNat :=
        Nat.pos_of_ne_zero fun zero => holds.1 (UInt8.toNat_inj.mp zero)
      simp only [State.work, parentEq, Parent.work, List.length_drop]
      omega
  | prints parentEq =>
      simp only [State.work, parentEq, Parent.work]
      omega
  | exits parentEq =>
      simp only [State.work, parentEq, Parent.work]
      omega

/-! ## Somebody can move -/

/-- What the child writes is a length or a word. -/
theorem length_data_le (faithful : Faithful file done left state) (fits : Fits file)
    {data : List UInt8} (writes : state.child.data = some data) : data.length ≤ 255 := by
  cases childEq : state.child with
  | writeLength word caller =>
      rw [childEq] at writes
      cases writes
      simp
  | writeWord word caller =>
      rw [childEq] at writes
      cases writes
      exact faithful.short fits _ (by simp [childEq, Child.unsent])
  | _ =>
      rw [childEq] at writes
      cases writes

/-- A child that writes has not sent everything. -/
theorem unsent_ne_nil {data : List UInt8} (writes : state.child.data = some data) :
    state.child.unsent ≠ [] := by
  cases childEq : state.child with
  | writeLength word caller => exact List.cons_ne_nil _ _
  | writeWord word caller => exact List.cons_ne_nil _ _
  | _ =>
      rw [childEq] at writes
      cases writes

/-- A child that has room for what it writes moves on. -/
theorem child_moves {capacity : Nat} (faithful : Faithful file done left state)
    (running : state.child ≠ .exited)
    (room : ∀ data, state.child.data = some data → state.pipe.length + data.length ≤ capacity) :
    ∃ next, Simple.childStep capacity state = some next := by
  have fine := faithful.fine
  cases childEq : state.child with
  | start rest => exact ⟨_, by rw [Simple.childStep, childEq]⟩
  | reading rest word => exact ⟨_, childStep_reading childEq⟩
  | writeLength word caller =>
      have fitsIn := room _ (by rw [childEq, Child.data])
      have reader := faithful.hasReader (by rw [childEq]; exact List.cons_ne_nil _ _)
      simp only [Simple.childStep, childEq, Simple.write, reader, if_true, pushWhole, if_pos fitsIn]
      exact ⟨_, rfl⟩
  | writeWord word caller =>
      have fitsIn := room _ (by rw [childEq, Child.data])
      have reader := faithful.hasReader (by rw [childEq]; exact List.cons_ne_nil _ _)
      simp only [Simple.childStep, childEq, Simple.write, reader, if_true, pushWhole, if_pos fitsIn]
      exact ⟨_, rfl⟩
  | closing => exact ⟨_, by rw [Simple.childStep, childEq]⟩
  | exited => exact absurd childEq running
  | failed =>
      rw [childEq] at fine
      exact fine.elim

end Faithful

/-- A parent with something to read, or nothing to wait for, moves on. -/
theorem parent_moves {state : State} (running : state.parent ≠ .exited)
    (ready : state.pipe = [] → state.parent ≠ .start → state.hasWriter = false) :
    ∃ next, parentStep state = some next := by
  have waits (started : state.parent ≠ .start) :
      ¬(state.pipe = [] ∧ state.hasWriter = true) := by
    rintro ⟨empty, writer⟩
    rw [ready empty started] at writer
    cases writer
  cases parentEq : state.parent with
  | start => exact ⟨_, by rw [parentStep, parentEq]⟩
  | readLength =>
      simp only [parentStep, parentEq, read, pullUpTo, if_neg (waits (by simp [parentEq]))]
      exact ⟨_, rfl⟩
  | readWord =>
      simp only [parentStep, parentEq, read, pullUpTo, if_neg (waits (by simp [parentEq]))]
      exact ⟨_, rfl⟩
  | print => exact ⟨_, by rw [parentStep, parentEq]⟩
  | closing => exact ⟨_, by rw [parentStep, parentEq]⟩
  | exited => exact absurd parentEq running

namespace Faithful

variable {file : List UInt8} {done left : List (List UInt8)} {state : State}

/-- Unless both have ended one of the processes can move. -/
theorem moves {capacity : Nat} (faithful : Faithful file done left state) (fits : Fits file)
    (large : 512 ≤ capacity) (running : ¬(state.child = .exited ∧ state.parent = .exited)) :
    ∃ action next, Simple.step capacity state action = some next := by
  by_cases childEnded : state.child = .exited
  · have stepped : ∃ next, Simple.parentStep state = some next := by
      apply parent_moves
      · exact fun parentEnded => running ⟨childEnded, parentEnded⟩
      · intro _ started
        simp [State.hasWriter, childEnded, started]
    rcases stepped with ⟨next, stepped⟩
    exact ⟨.parent, next, stepped⟩
  · by_cases room : ∀ data, state.child.data = some data →
        state.pipe.length + data.length ≤ capacity
    · rcases faithful.child_moves childEnded room with ⟨next, stepped⟩
      exact ⟨.child, next, stepped⟩
    · push Not at room
      rcases room with ⟨data, writes, full⟩
      have short := faithful.length_data_le fits writes
      have stepped : ∃ next, Simple.parentStep state = some next := by
        apply parent_moves
        · exact fun parentEnded =>
            faithful.stays (unsent_ne_nil writes) (Or.inr parentEnded)
        · intro empty
          rw [empty, List.length_nil] at full
          omega
      rcases stepped with ⟨next, stepped⟩
      exact ⟨.parent, next, stepped⟩

/-- When both have ended all words were printed. -/
theorem finished (faithful : Faithful file done left state) (child : state.child = .exited)
    (parent : state.parent = .exited) : Finished file state := by
  have holds := faithful.holds
  have whole := faithful.whole
  simp only [State.Holds, parent] at holds
  rw [child, Child.unsent, List.append_nil, holds.1, framesOf] at whole
  refine ⟨child, parent, ?_⟩
  rw [faithful.printed, (List.append_inj' whole rfl).1]

/-- Every step on the way uses up work. -/
theorem descends {capacity : Nat} (fits : Fits file) (large : 512 ≤ capacity) :
    Descends (Simple.step capacity) (fun state => ∃ done left, Faithful file done left state)
      (Finished file) State.work where
  enabled := by
    rintro state ⟨done, left, faithful⟩ unfinished
    apply faithful.moves fits large
    exact fun ended => unfinished (faithful.finished ended.1 ended.2)
  keeps := by
    rintro state action next ⟨done, left, faithful⟩ _ stepped
    exact faithful.step fits stepped
  decreases := by
    rintro state action next ⟨done, left, faithful⟩ _ stepped
    cases action with
    | child => exact childStep_work stepped
    | parent => exact faithful.parentStep_work fits stepped

end Faithful

/-! ## Files with a word that does not fit -/

/-- The child still has to fail. -/
def Child.Doomed : Child → Prop
  | .start file => ¬Fits file
  | .reading file word =>
      ¬Fits (word ++ file) ∧ word.length ≤ maxWordLength ∧
        ∀ letter ∈ word, isDelimiter letter = false
  | .writeLength _ (.loop file) => ¬Fits file
  | .writeWord _ (.loop file) => ¬Fits file
  | .failed => True
  | _ => False

/-- Dealing with a letter leaves the long word to come. -/
theorem doomed_resume {file word : List UInt8} {outcome : Outcome UInt8}
    (reads : Reads isDelimiter maxWordLength file word outcome)
    (doomed : (Child.reading file word).Doomed) : (Child.resume outcome).Doomed := by
  rcases doomed with ⟨tooLong, room, letters⟩
  have same := (reads.wordsBy_eq letters room).2
  change ¬FitsBy isDelimiter maxWordLength (word ++ file) at tooLong
  rw [same] at tooLong
  cases outcome with
  | send sent rest => exact tooLong
  | sendLast sent => exact tooLong trivial
  | finish => exact tooLong trivial
  | read rest held =>
      refine ⟨tooLong, ?_, reads.letters letters⟩
      cases reads with
      | skip delimits => exact Nat.zero_le _
      | collect ordinary room =>
          rw [List.length_append, List.length_singleton]
          exact room
  | refuse => trivial

/-- A child that will fail goes on with the rest of the file after each word. -/
theorem doomed_afterSend {caller : Caller} {word : List UInt8}
    (doomed : (Child.writeWord word caller).Doomed) : (afterSend caller).Doomed := by
  cases caller with
  | loop file => exact ⟨doomed, Nat.zero_le _, List.forall_mem_nil _⟩
  | lastWord => exact doomed.elim
  | terminator => exact doomed.elim

theorem childStep_doomed {capacity : Nat} {state next : State} (doomed : state.child.Doomed)
    (stepped : childStep capacity state = some next) : next.child.Doomed := by
  cases childStep_moves stepped with
  | opens childEq =>
      rw [childEq] at doomed
      exact ⟨doomed, Nat.zero_le _, List.forall_mem_nil _⟩
  | @reads file word childEq =>
      rw [childEq] at doomed
      exact doomed_resume (reads_readNext isDelimiter maxWordLength file word) doomed
  | breaks => trivial
  | @begins word caller childEq =>
      rw [childEq] at doomed
      cases caller <;> exact doomed
  | @terminates caller childEq =>
      rw [childEq] at doomed
      apply @doomed_afterSend caller []
      cases caller <;> exact doomed
  | sends childEq =>
      rw [childEq] at doomed
      exact doomed_afterSend doomed
  | exits childEq =>
      rw [childEq] at doomed
      exact doomed.elim

/-- On a file with a word that does not fit the child never ends well. -/
theorem fits_of_finished {capacity : Nat} {file word : List UInt8} {length : UInt8}
    {state : State} (reachable : Reachable (step capacity) (initial file length word) state)
    (finished : Finished file state) : Fits file := by
  by_contra tooLong
  have doomed : state.child.Doomed := by
    refine @Reachable.invariant _ _ _ (fun state => state.child.Doomed) _ _ reachable tooLong ?_
    intro before action after doomed stepped
    cases action with
    | child => exact childStep_doomed doomed stepped
    | parent =>
        rw [parentStep_child stepped]
        exact doomed
  rw [finished.child] at doomed
  exact doomed

/-! ## Which files are printed -/

theorem completes_of_fits {capacity : Nat} {file word : List UInt8} {length : UInt8}
    {state : State} (fits : Fits file) (large : 512 ≤ capacity)
    (reachable : Reachable (step capacity) (initial file length word) state) :
    Completes capacity file state := by
  rcases reachable_faithful fits reachable with ⟨done, left, faithful⟩
  have ends : Inevitably (step capacity) (Finished file) state :=
    (Faithful.descends fits large).inevitably ⟨done, left, faithful⟩
  refine ⟨?_, ends.of_stuck, ends⟩
  rw [faithful.printed]
  exact faithful.done_isPrefix.map line

end CExamples.Pipe.Simple
