import CExamples.Pipe.Simple.Progress
import CExamples.Pipe.Synchronized.Refinement

/-!
# The whole run of the synchronized pipe

The semaphores may keep a process waiting that could move in the simple pipe.  The
child waits once for each frame and the parent posts once for each word, so one
acknowledgement has to be there from the start.  With it some process can always
move, and a run prints the words of the file and ends like one of the simple pipe;
this is so for the values that `main` asks for and for those that it gets.
-/

namespace CExamples.Pipe.Synchronized

open CExamples.Transition
open CExamples.Word
open CExamples.Pipe.Reliable (Caller framesOf line)
open CExamples.Pipe.Simple (Fits Faithful)

/-- Both processes have ended, and all words were printed. -/
structure Finished (file : List UInt8) (state : State) : Prop where
  child : state.child = .exited
  parent : state.parent = .exited
  printed : state.printed = (wordsOf file).map line

/-- What the run on `file` promises in each of its states. -/
structure Completes (capacity : Nat) (file : List UInt8) (state : State) : Prop where
  /-- The printed lines are those of the first words. -/
  inOrder : state.printed <+: (wordsOf file).map line
  /-- The run is stuck only when it has finished. -/
  notStuck : Stuck (step capacity) state → Finished file state
  /-- Every run finishes. -/
  ends : Inevitably (step capacity) (Finished file) state

/-! ## The tokens -/

/-- The frame that was written and not posted. -/
def Child.unposted : Child → Nat
  | .post _ => 1
  | _ => 0

/-- The post that the parent has taken for a frame that it has not printed. -/
def Parent.taken : Parent → Nat
  | .readLength => 1
  | .readWord => 1
  | .print => 1
  | .closing => 1
  | .exited => 1
  | _ => 0

/-- The line that was printed and not acknowledged. -/
def Parent.unacknowledged : Parent → Nat
  | .post => 1
  | _ => 0

/-- Where the posts are. -/
structure Tokens (startParent : Nat) (state : State) : Prop where
  taken : state.semParent + state.parent.taken + state.printed.length =
    state.posted + startParent
  acknowledged : state.acknowledged + state.parent.unacknowledged = state.printed.length
  posted : state.posted + state.child.unposted = state.written

namespace Tokens

variable {startParent : Nat} {state next : State}

theorem childStep {capacity : Nat} (tokens : Tokens startParent state)
    (stepped : Synchronized.childStep capacity state = some next) : Tokens startParent next := by
  have taken := tokens.taken
  have posted := tokens.posted
  have moved {child : Child} (same : child.unposted = state.child.unposted) :
      Tokens startParent { state with child := child } :=
    ⟨taken, tokens.acknowledged, by rw [same]; exact posted⟩
  cases childStep_moves stepped with
  | opens childEq => exact moved (by rw [childEq]; rfl)
  | @reads file word childEq =>
      apply moved
      rw [childEq]
      cases readNext isDelimiter maxWordLength file word <;> rfl
  | breaks writes =>
      apply moved
      cases childEq : state.child with
      | post caller =>
          rw [childEq] at writes
          cases writes
      | _ => rfl
  | begins childEq =>
      rw [childEq] at posted
      exact ⟨taken, tokens.acknowledged, posted⟩
  | terminates childEq =>
      rw [childEq] at posted
      exact ⟨taken, tokens.acknowledged, congrArg (· + 1) posted⟩
  | sends childEq =>
      rw [childEq] at posted
      exact ⟨taken, tokens.acknowledged, congrArg (· + 1) posted⟩
  | posts childEq =>
      rw [childEq] at posted
      refine ⟨?_, tokens.acknowledged, posted⟩
      simp only
      omega
  | @waits caller semChild childEq waited =>
      rw [childEq] at posted
      refine ⟨taken, tokens.acknowledged, ?_⟩
      cases caller <;> exact posted
  | exits childEq => exact moved (by rw [childEq]; rfl)

theorem parentStep (tokens : Tokens startParent state)
    (stepped : Synchronized.parentStep state = some next) : Tokens startParent next := by
  have taken := tokens.taken
  have acknowledged := tokens.acknowledged
  cases parentStep_moves stepped with
  | opens parentEq =>
      rw [parentEq] at taken acknowledged
      exact ⟨taken, acknowledged, tokens.posted⟩
  | waits parentEq waited =>
      rw [parentEq, waited] at taken
      rw [parentEq] at acknowledged
      refine ⟨?_, acknowledged, tokens.posted⟩
      simp only [Parent.taken] at taken ⊢
      omega
  | readsLength parentEq =>
      rw [parentEq] at taken acknowledged
      constructor
      · simp only
        split <;> exact taken
      · simp only
        split <;> exact acknowledged
      · exact tokens.posted
  | readsWord parentEq =>
      rw [parentEq] at taken acknowledged
      exact ⟨taken, acknowledged, tokens.posted⟩
  | prints parentEq =>
      rw [parentEq] at taken acknowledged
      simp only [Parent.taken, Parent.unacknowledged] at taken acknowledged
      constructor
      · simp only [Parent.taken, List.length_append, List.length_singleton]
        omega
      · simp only [Parent.unacknowledged, List.length_append, List.length_singleton]
        omega
      · exact tokens.posted
  | posts parentEq =>
      rw [parentEq] at taken acknowledged
      exact ⟨taken, acknowledged, tokens.posted⟩
  | exits parentEq =>
      rw [parentEq] at taken acknowledged
      exact ⟨taken, acknowledged, tokens.posted⟩

end Tokens

theorem reachable_tokens {capacity startParent startChild : Nat} {file word : List UInt8}
    {length : UInt8} {state : State}
    (reachable : Reachable (step capacity) (initial startParent startChild file length word) state) :
    Tokens startParent state := by
  apply reachable.invariant
  · constructor
    · simp [initial, Parent.taken]
    · rfl
    · rfl
  · intro before action after tokens stepped
    cases action with
    | child => exact tokens.childStep stepped
    | parent => exact tokens.parentStep stepped

/-! ## Processes that wait -/

/-- Why the parent does not move. -/
theorem parent_blocked {state : State} (blocked : parentStep state = none) :
    state.parent = .exited ∨ (state.parent = .wait ∧ state.semParent = 0) ∨
      (state.parent = .readLength ∨ state.parent = .readWord) ∧ state.pipe = [] ∧
        state.hasWriter = true := by
  have empty {wanted : Nat} (none : read state wanted = none) :
      state.pipe = [] ∧ state.hasWriter = true := by
    rw [read, pullUpTo] at none
    by_contra ready
    rw [if_neg ready] at none
    cases none
  cases parentEq : state.parent with
  | wait =>
      simp only [parentStep, parentEq, Option.map_eq_none_iff] at blocked
      cases count : state.semParent with
      | zero => exact Or.inr (Or.inl ⟨rfl, rfl⟩)
      | succ semParent =>
          rw [count] at blocked
          cases blocked
  | readLength =>
      simp only [parentStep, parentEq, Option.map_eq_none_iff] at blocked
      exact Or.inr (Or.inr ⟨Or.inl rfl, empty blocked⟩)
  | readWord =>
      simp only [parentStep, parentEq, Option.map_eq_none_iff] at blocked
      exact Or.inr (Or.inr ⟨Or.inr rfl, empty blocked⟩)
  | exited => exact Or.inl rfl
  | _ =>
      simp only [parentStep, parentEq] at blocked
      cases blocked

/-- Why the child does not move. -/
theorem child_blocked {capacity : Nat} {state : State} (blocked : childStep capacity state = none) :
    state.child = .exited ∨ state.child = .failed ∨
      (∃ caller, state.child = .wait caller ∧ state.semChild = 0) ∨
      ∃ data, state.child.data = some data ∧ capacity < state.pipe.length + data.length := by
  have full {data : List UInt8} {after : List UInt8 → State}
      (none : write capacity state data after = none) :
      capacity < state.pipe.length + data.length := by
    rw [write] at none
    split at none
    · rw [Option.map_eq_none_iff, pushWhole] at none
      by_contra room
      rw [if_pos (Nat.le_of_not_lt room)] at none
      cases none
    · cases none
  cases childEq : state.child with
  | reading file word =>
      rw [childStep_reading childEq] at blocked
      cases blocked
  | writeLength word caller =>
      simp only [childStep, childEq] at blocked
      exact Or.inr (Or.inr (Or.inr ⟨_, rfl, full blocked⟩))
  | writeWord word caller =>
      simp only [childStep, childEq] at blocked
      exact Or.inr (Or.inr (Or.inr ⟨_, rfl, full blocked⟩))
  | wait caller =>
      simp only [childStep, childEq, Option.map_eq_none_iff] at blocked
      cases count : state.semChild with
      | zero => exact Or.inr (Or.inr (Or.inl ⟨caller, rfl, rfl⟩))
      | succ semChild =>
          rw [count] at blocked
          cases blocked
  | exited => exact Or.inl rfl
  | failed => exact Or.inr (Or.inl rfl)
  | _ =>
      simp only [childStep, childEq] at blocked
      cases blocked

/-- A state of a run, with the state of the simple pipe that mirrors it. -/
structure Paced (startParent startChild : Nat) (file : List UInt8) (done left : List (List UInt8))
    (state : State) (above : Simple.State) : Prop where
  mirrors : Mirrors state above
  faithful : Faithful file done left above
  tokens : Tokens startParent state
  counted : Counted startParent startChild state

namespace Paced

variable {startParent startChild : Nat} {file : List UInt8} {done left : List (List UInt8)}
  {state : State} {above : Simple.State}

theorem printed (paced : Paced startParent startChild file done left state above) :
    state.printed = done.map line := by
  rw [← paced.faithful.printed, paced.mirrors.same]
  rfl

theorem child (paced : Paced startParent startChild file done left state above) :
    above.child = state.child.simple := by
  rw [paced.mirrors.same]
  rfl

theorem parent (paced : Paced startParent startChild file done left state above) :
    above.parent = state.parent.simple := by
  rw [paced.mirrors.same]
  rfl

theorem pipe (paced : Paced startParent startChild file done left state above) :
    above.pipe = state.pipe := by
  rw [paced.mirrors.same]
  rfl

/-- The frames that were written are those that were printed and those that were not. -/
theorem written (paced : Paced startParent startChild file done left state above) :
    state.written = done.length + left.length := by
  rw [← paced.mirrors.sent, paced.faithful.sent, List.length_append]

theorem data_eq (paced : Paced startParent startChild file done left state above)
    {data : List UInt8} (writes : state.child.data = some data) : above.child.data = some data := by
  rw [paced.child]
  cases childEq : state.child with
  | writeLength word caller => rwa [childEq] at writes
  | writeWord word caller => rwa [childEq] at writes
  | _ =>
      rw [childEq] at writes
      cases writes

/-- A parent that waits in vain has printed all frames that were posted. -/
theorem posted_le (paced : Paced startParent startChild file done left state above)
    (waits : state.parent = .wait) (none : state.semParent = 0) : state.posted ≤ done.length := by
  have taken := paced.tokens.taken
  rw [waits, none, paced.printed, List.length_map] at taken
  simp only [Parent.taken] at taken
  omega

/-- A child that waits in vain has written two frames that are not acknowledged. -/
theorem acknowledged_lt (paced : Paced startParent startChild file done left state above)
    (start : 1 ≤ startChild) {caller : Caller} (waits : state.child = .wait caller)
    (none : state.semChild = 0) : state.acknowledged + 2 ≤ done.length + left.length := by
  have writes := paced.counted.writes
  rw [waits, none, paced.written] at writes
  simp only [Child.unwaited] at writes
  omega

/-- Outside its posts the parent has acknowledged the lines that it has printed. -/
theorem acknowledged_eq (paced : Paced startParent startChild file done left state above)
    (quiet : state.parent ≠ .post) : state.acknowledged = done.length := by
  have acknowledged := paced.tokens.acknowledged
  have silent : state.parent.unacknowledged = 0 := by
    cases parentEq : state.parent with
    | post => exact absurd parentEq quiet
    | _ => rfl
  rw [silent, paced.printed, List.length_map] at acknowledged
  exact acknowledged

/-- A parent that waits in vain has printed all frames that were written. -/
theorem left_eq_nil (paced : Paced startParent startChild file done left state above)
    (waits : state.parent = .wait) (none : state.semParent = 0)
    (posted : state.child.unposted = 0) : left = [] := by
  have bound := paced.posted_le waits none
  have tally := paced.tokens.posted
  rw [posted, paced.written] at tally
  apply List.length_eq_zero_iff.mp
  omega

/-- A parent that waits in vain is not alone. -/
theorem not_blocked_of_wait {capacity : Nat}
    (paced : Paced startParent startChild file done left state above) (fits : Fits file)
    (start : 1 ≤ startChild) (large : 512 ≤ capacity) (waits : state.parent = .wait)
    (none : state.semParent = 0) : childStep capacity state ≠ .none := by
  intro blocked
  have parentAt : above.parent = .readLength := by rw [paced.parent, waits]; rfl
  rcases child_blocked blocked with exited | failed | ⟨caller, waiting, noToken⟩ | ⟨data, writes, full⟩
  · have childAt : above.child = .exited := by rw [paced.child, exited]; rfl
    have nothing := paced.left_eq_nil waits none (by rw [exited]; rfl)
    have whole := paced.faithful.whole
    rw [nothing, childAt, Simple.Child.unsent, List.append_nil, List.append_nil] at whole
    exact paced.faithful.nonempty [] (by rw [whole]; simp [framesOf]) rfl
  · have fine := paced.faithful.fine
    rw [paced.child, failed] at fine
    exact fine
  · have nothing := paced.left_eq_nil waits none (by rw [waiting]; rfl)
    have ahead := paced.acknowledged_lt start waiting noToken
    have level := paced.acknowledged_eq (by rw [waits]; exact Parent.noConfusion)
    rw [nothing, List.length_nil] at ahead
    omega
  · have posted : state.child.unposted = 0 := by
      cases childEq : state.child with
      | post caller =>
          rw [childEq] at writes
          cases writes
      | _ => rfl
    have nothing := paced.left_eq_nil waits none posted
    have holds := paced.faithful.holds
    simp only [Simple.State.Holds, parentAt] at holds
    have short := paced.faithful.length_data_le fits (paced.data_eq writes)
    have begun : above.child.begun.length ≤ 1 := by
      cases above.child <;> simp [Simple.Child.begun]
    have lengths := congrArg List.length holds
    rw [nothing, frames_nil, List.nil_append, paced.pipe] at lengths
    omega

/-- A parent that waits for the pipe is not alone. -/
theorem not_blocked_of_read {capacity : Nat}
    (paced : Paced startParent startChild file done left state above) (fits : Fits file)
    (start : 1 ≤ startChild) (large : 512 ≤ capacity)
    (reads : state.parent = .readLength ∨ state.parent = .readWord) (empty : state.pipe = [])
    (writer : state.hasWriter = true) : childStep capacity state ≠ none := by
  intro blocked
  rcases child_blocked blocked with exited | failed | ⟨caller, waiting, noToken⟩ | ⟨data, writes, full⟩
  · rcases reads with parentEq | parentEq <;> simp [State.hasWriter, exited, parentEq] at writer
  · have fine := paced.faithful.fine
    rw [paced.child, failed] at fine
    exact fine
  · have ahead := paced.acknowledged_lt start waiting noToken
    have level := paced.acknowledged_eq (by rcases reads with parentEq | parentEq <;> simp [parentEq])
    have holds := paced.faithful.holds
    have short : (frames byteLength left).length ≤ 1 := by
      rcases reads with parentEq | parentEq
      · have parentAt : above.parent = .readLength := by rw [paced.parent, parentEq]; rfl
        simp only [Simple.State.Holds, parentAt] at holds
        have lengths := congrArg List.length holds
        rw [paced.pipe, empty, List.length_append, List.length_nil] at lengths
        omega
      · have parentAt : above.parent = .readWord := by rw [paced.parent, parentEq]; rfl
        simp only [Simple.State.Holds, parentAt] at holds
        have lengths := congrArg List.length holds.2
        rw [List.length_append, List.length_cons, paced.pipe, empty, List.length_nil] at lengths
        omega
    rcases left with _ | ⟨first, _ | ⟨second, rest⟩⟩
    · rw [List.length_nil] at ahead
      omega
    · rw [List.length_singleton] at ahead
      omega
    · simp only [frames_cons, List.length_append, length_frame] at short
      omega
  · have short := paced.faithful.length_data_le fits (paced.data_eq writes)
    rw [empty, List.length_nil] at full
    omega

/-- Unless both have ended one of the processes can move. -/
theorem moves {capacity : Nat} (paced : Paced startParent startChild file done left state above)
    (fits : Fits file) (start : 1 ≤ startChild) (large : 512 ≤ capacity)
    (running : ¬Simple.Finished file above) :
    ∃ action next, step capacity state action = some next := by
  cases parentStepped : parentStep state with
  | some next => exact ⟨.parent, next, parentStepped⟩
  | none =>
      cases childStepped : childStep capacity state with
      | some next => exact ⟨.child, next, childStepped⟩
      | none =>
          exfalso
          rcases parent_blocked parentStepped with exited | ⟨waits, noToken⟩ | ⟨reads, empty, writer⟩
          · have parentAt : above.parent = .exited := by rw [paced.parent, exited]; rfl
            have holds := paced.faithful.holds
            simp only [Simple.State.Holds, parentAt] at holds
            rcases child_blocked childStepped with
              ended | failed | ⟨caller, waiting, noToken⟩ | ⟨data, writes, _⟩
            · have childAt : above.child = .exited := by rw [paced.child, ended]; rfl
              exact running (paced.faithful.finished childAt parentAt)
            · have fine := paced.faithful.fine
              rw [paced.child, failed] at fine
              exact fine
            · have ahead := paced.acknowledged_lt start waiting noToken
              have level := paced.acknowledged_eq (by simp [exited])
              rw [holds.1, List.length_singleton] at ahead
              omega
            · exact paced.faithful.stays (Faithful.unsent_ne_nil (paced.data_eq writes))
                (Or.inr parentAt)
          · exact paced.not_blocked_of_wait fits start large waits noToken childStepped
          · exact paced.not_blocked_of_read fits start large reads empty writer childStepped

/-- Both processes have ended together with those of the simple pipe. -/
theorem finished (paced : Paced startParent startChild file done left state above)
    (finished : Simple.Finished file above) : Finished file state := by
  rcases finished with ⟨child, parent, printed⟩
  rw [paced.child] at child
  rw [paced.parent] at parent
  constructor
  · cases childEq : state.child with
    | exited => rfl
    | post caller => cases caller <;> simp [childEq, Child.simple, Simple.afterSend] at child
    | wait caller => cases caller <;> simp [childEq, Child.simple, Simple.afterSend] at child
    | _ => simp [childEq, Child.simple] at child
  · cases parentEq : state.parent with
    | exited => rfl
    | _ => simp [parentEq, Parent.simple] at parent
  · rw [← printed, paced.printed, paced.faithful.printed]

/-- The run that has ended took an acknowledgement that no parent gave. -/
theorem one_le_of_finished (paced : Paced startParent startChild file done left state above)
    (finished : Finished file state) : 1 ≤ startChild := by
  have parentAt : above.parent = .exited := by rw [paced.parent, finished.parent]; rfl
  have holds := paced.faithful.holds
  simp only [Simple.State.Holds, parentAt] at holds
  have level := paced.acknowledged_eq (by simp [finished.parent])
  have writes := paced.counted.writes
  rw [finished.child, paced.written, holds.1, List.length_singleton] at writes
  simp only [Child.unwaited] at writes
  omega

end Paced

/-! ## From which values the run survives -/

section Runs

variable {capacity semParent semChild : Nat} {file word : List UInt8} {length : UInt8}
  {state : State} {above : Simple.State}

theorem exists_paced (fits : Fits file) (mirrors : Mirrors state above)
    (reachable : Reachable (step capacity) (initial semParent semChild file length word) state)
    (aboveReachable : Reachable (Simple.step capacity) (Simple.initial file length word) above) :
    ∃ done left, Paced semParent semChild file done left state above := by
  rcases Simple.reachable_faithful fits aboveReachable with ⟨done, left, faithful⟩
  exact ⟨done, left, mirrors, faithful, reachable_tokens reachable, reachable_counted reachable⟩

/-- Every run has a run of the simple pipe beside it. -/
theorem exists_mirrors
    (reachable : Reachable (step capacity) (initial semParent semChild file length word) state) :
    ∃ above, Reachable (Simple.step capacity) (Simple.initial file length word) above ∧
      Mirrors state above :=
  (mirrors_simulates capacity).reachable mirrors_initial reachable

theorem finished_of_finished (finished : Finished file state) (mirrors : Mirrors state above) :
    Simple.Finished file above := by
  rcases finished with ⟨child, parent, printed⟩
  rw [mirrors.same]
  constructor
  · rw [State.simple, child]
    rfl
  · rw [State.simple, parent]
    rfl
  · exact printed

theorem ends_of_acknowledged (fits : Fits file) (large : 512 ≤ capacity) (start : 1 ≤ semChild)
    (reachable : Reachable (step capacity) (initial semParent semChild file length word) state) :
    Inevitably (step capacity) (Finished file) state := by
  rcases exists_mirrors reachable with ⟨above, aboveReachable, mirrors⟩
  have ends := (Simple.completes_of_fits fits large aboveReachable).ends
  have simulates := (mirrors_simulates capacity).along
    (initial semParent semChild file length word) (Simple.initial file length word)
  apply simulates.inevitably _ _ ends ⟨mirrors, reachable, aboveReachable⟩
  · rintro state above ⟨mirrors, below, onTop⟩ finished
    rcases exists_paced fits mirrors below onTop with ⟨done, left, paced⟩
    exact paced.finished finished
  · rintro state above ⟨mirrors, below, onTop⟩ unfinished
    rcases exists_paced fits mirrors below onTop with ⟨done, left, paced⟩
    exact paced.moves fits start large unfinished

end Runs

end CExamples.Pipe.Synchronized
