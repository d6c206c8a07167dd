import CExamples.Pipe.Reliable.Progress

/-!
# Delivery through the reliable pipe

From the balance of the two processes: the pipe holds at most two frames, the
parent finds its whole next frame in the pipe, some process can always move until
both have finished, and then every word has been printed.  A word is printed as a
string, so only its letters before a zero byte appear.
-/

namespace CExamples.Pipe.Reliable

open CExamples.Transition
open CExamples.Word

/-- What the child has not written is no longer than the frames it has not
posted. -/
theorem Child.length_unwritten_le {child : Child} (fine : child.Fine) :
    child.unwritten.length ≤ (frames byteLength child.unposted).length := by
  cases child with
  | writeWord word remaining caller =>
      have shorter := fine.2.length_le
      simp only [unwritten, current, unbegun, unposted, frames_cons, List.length_append,
        length_frame]
      omega
  | post word caller =>
      simp only [unwritten, current, unbegun, unposted, frames_cons, List.length_append,
        List.length_nil]
      omega
  | _ => exact Nat.le_refl _

theorem Child.unbegun_suffix (child : Child) : child.unbegun <:+ child.unposted := by
  cases child with
  | writeLength word caller => exact List.suffix_cons _ _
  | writeWord word remaining caller => exact List.suffix_cons _ _
  | post word caller => exact List.suffix_cons _ _
  | _ => exact List.suffix_refl _

theorem Child.unwaited_le (child : Child) : child.unwaited ≤ child.unbegun.length + 1 := by
  cases child <;> simp [unwaited, unbegun, unposted]

namespace Balanced

variable {file : List UInt8} {done left : List (List UInt8)} {state : State}

theorem flowing (balanced : Balanced file done left state) : Flowing 0 1 file done left state where
  words := balanced.words
  printed := balanced.printed
  reads := balanced.reads
  fine := balanced.fine
  unposted := balanced.unposted
  parentCount := balanced.parentCount
  childCount := by rw [balanced.childCount]

theorem unread_suffix (balanced : Balanced file done left state) :
    state.parent.unread left <:+ framesOf file := by
  have whole : left ++ [[]] <:+ framesOf file := ⟨done, balanced.flowing.framesOf_eq.symm⟩
  have reads := balanced.reads
  cases parentEq : state.parent with
  | print length word =>
      rw [parentEq] at reads
      obtain ⟨rest, rfl, _, _⟩ := reads
      exact (List.suffix_cons word (rest ++ [[]])).trans whole
  | closing => exact List.nil_suffix
  | exited => exact List.nil_suffix
  | _ => exact whole

theorem length_unread_le (balanced : Balanced file done left state) :
    (state.parent.unread left).length ≤ state.parent.unacked left.length + 1 := by
  have reads := balanced.reads
  cases parentEq : state.parent with
  | print length word =>
      rw [parentEq] at reads
      obtain ⟨rest, rfl, _, _⟩ := reads
      simp [Parent.unread, Parent.unacked]
  | _ => simp [Parent.unread, Parent.unacked]

/-- What is in the pipe or being written are the ends of at most two consecutive
frames. -/
theorem inFlight (balanced : Balanced file done left state) :
    ∃ earlier pair later, framesOf file = earlier ++ pair ++ later ∧ pair.length ≤ 2 ∧
      state.pipe ++ state.child.current <:+ frames byteLength pair := by
  have unbegun := state.child.unbegun_suffix.trans balanced.unposted
  obtain ⟨before, read⟩ := balanced.reads.suffix
  have stream : before ++ (state.pipe ++ state.child.current) ++
      frames byteLength state.child.unbegun =
        frames byteLength (state.parent.unread left) := by
    rw [← read, Child.unwritten]
    simp only [List.append_assoc]
  rcases List.suffix_or_suffix_of_suffix unbegun balanced.unread_suffix with ahead | behind
  · obtain ⟨pair, split⟩ := ahead
    obtain ⟨earlier, whole⟩ := balanced.unread_suffix
    refine ⟨earlier, pair, state.child.unbegun, ?_, ?_, before, ?_⟩
    · rw [← whole, ← split, List.append_assoc]
    · have counts := congrArg List.length split
      have ack := balanced.length_unread_le
      have waits := state.child.unwaited_le
      have balance := balanced.childCount
      rw [List.length_append] at counts
      omega
    · rw [← split, frames_append] at stream
      exact List.append_cancel_right stream
  · refine ⟨framesOf file, [], [], by simp, by simp, ?_⟩
    have longer := length_frames_le_of_suffix byteLength behind
    have counts := congrArg List.length stream
    have empty : state.pipe ++ state.child.current = [] := by
      simp only [List.length_append] at counts
      rw [← List.length_eq_zero_iff, List.length_append]
      omega
    rw [empty]
    exact List.nil_suffix

/-- No write waits for room. -/
theorem room (balanced : Balanced file done left state) (short : Short file) :
    state.pipe.length + state.child.current.length ≤ 510 := by
  obtain ⟨earlier, pair, later, split, atMost, suffix⟩ := balanced.inFlight
  have bounds : ∀ word ∈ pair, word.length ≤ 254 := by
    intro word member
    have inFile : word ∈ framesOf file := by
      rw [split]
      simp [member]
    rcases List.mem_append.mp inFile with isWord | terminator
    · exact short word isWord
    · rw [List.mem_singleton.mp terminator]
      exact Nat.zero_le _
  have frameBytes := length_frames_le byteLength bounds
  have inside := suffix.length_le
  rw [List.length_append] at inside
  have twice := Nat.mul_le_mul_right (254 + 1) atMost
  omega

/-- The child's unposted frames are among the last ones the parent waits for. -/
theorem length_unwritten_le (balanced : Balanced file done left state)
    {rest : List (List UInt8)} (suffix : rest <:+ framesOf file)
    (untaken : state.parent.untaken left.length ≤ rest.length) :
    state.child.unwritten.length ≤ (frames byteLength rest).length := by
  have counts := balanced.parentCount
  have within : state.child.unposted <:+ rest :=
    List.suffix_of_suffix_length_le balanced.unposted suffix (by omega)
  exact (Child.length_unwritten_le balanced.fine).trans
    (length_frames_le_of_suffix byteLength within)

/-- After `sem_wait(sem_parent)` the whole next frame is in the pipe. -/
theorem nextFrame (balanced : Balanced file done left state)
    (parentEq : state.parent = .readLength) :
    ∃ word rest, left ++ [[]] = word :: rest ∧ frame byteLength word <+: state.pipe := by
  obtain ⟨word, rest, split⟩ := List.exists_cons_of_ne_nil (show left ++ [[]] ≠ [] by simp)
  have lengths : left.length = rest.length := by
    have counts := congrArg List.length split
    rw [List.length_append, List.length_singleton, List.length_cons] at counts
    omega
  have restSuffix : rest <:+ framesOf file :=
    (List.suffix_cons word rest).trans ⟨done, by rw [← split, balanced.flowing.framesOf_eq]⟩
  have written := balanced.length_unwritten_le restSuffix (by
    rw [parentEq]
    exact Nat.le_of_eq lengths)
  have stream : state.pipe ++ state.child.unwritten = frames byteLength (left ++ [[]]) := by
    have reads := balanced.reads
    rwa [parentEq] at reads
  rw [split, frames_cons] at stream
  refine ⟨word, rest, split, ?_⟩
  refine List.prefix_of_prefix_length_le (List.prefix_append _ _)
    ⟨state.child.unwritten, stream⟩ ?_
  have counts := congrArg List.length stream
  rw [List.length_append, List.length_append] at counts
  omega

/-- While the parent reads a word, the rest of it is in the pipe. -/
theorem restOfWord (balanced : Balanced file done left state) {length : UInt8}
    {got : List UInt8} (parentEq : state.parent = .readWord length got) :
    got.length < length.toNat ∧ length.toNat ≤ got.length + state.pipe.length := by
  have reads := balanced.reads
  rw [parentEq] at reads
  obtain ⟨word, rest, rfl, lengthEq, shorter, stream⟩ := reads
  have restSuffix : rest ++ [[]] <:+ framesOf file :=
    ⟨done ++ [word], by rw [balanced.flowing.framesOf_eq]; simp⟩
  have written := balanced.length_unwritten_le restSuffix (by
    rw [parentEq]
    simp [Parent.untaken])
  have counts := congrArg List.length stream
  rw [List.length_append, List.length_append, List.length_append] at counts
  omega

/-- When both have finished nothing is left over. -/
theorem finished (balanced : Balanced file done left state) (child : state.child = .exited)
    (parent : state.parent = .exited) :
    state.printed = (wordsOf file).map line ∧ state.pipe = [] ∧ state.semParent = 0 ∧
      state.semChild = 0 := by
  have reads := balanced.reads
  have parentCount := balanced.parentCount
  have childCount := balanced.childCount
  rw [parent, child] at reads parentCount childCount
  obtain ⟨rfl, stream⟩ := reads
  refine ⟨?_, (List.append_eq_nil_iff.mp stream).1, ?_, ?_⟩
  · rw [balanced.printed, balanced.words, List.append_nil]
  · simpa [Child.unposted, Parent.untaken] using parentCount
  · simpa [Child.unwaited, Child.unposted, Parent.unacked] using childCount

end Balanced

/-! ## Every run -/

/-- The next frame that the parent reads is that of `word`. -/
def State.Awaits (state : State) (file word : List UInt8) : Prop :=
  (framesOf file)[state.printed.length]? = some word

/-- What the run on `file` guarantees in each of its states. -/
structure Delivers (capacity : Nat) (file : List UInt8) (state : State) : Prop where
  /-- The printed lines are those of the first words. -/
  inOrder : state.printed <+: (wordsOf file).map line
  /-- What the child has begun to write and the parent has not read belongs to two
  consecutive frames. -/
  twoFrames : ∃ earlier pair later, framesOf file = earlier ++ pair ++ later ∧
    pair.length ≤ 2 ∧ state.pipe ++ state.child.current <:+ frames byteLength pair
  /-- There is room for all that the child is writing. -/
  room : state.pipe.length + state.child.current.length ≤ capacity
  /-- After `sem_wait(sem_parent)` the next frame is in the pipe. -/
  length : state.parent = .readLength →
    ∃ word, state.Awaits file word ∧ frame byteLength word <+: state.pipe
  /-- After the length the rest of the word is in the pipe. -/
  word : ∀ length got, state.parent = .readWord length got →
    ∃ word, state.Awaits file word ∧ word.length = length.toNat ∧
      got.length < word.length ∧ word <+: got ++ state.pipe
  /-- Some process can move on. -/
  progress : ¬(state.child = .exited ∧ state.parent = .exited) → Moves capacity state
  /-- At the end everything was printed and nothing is left over. -/
  complete : state.child = .exited → state.parent = .exited →
    state.printed = (wordsOf file).map line ∧ state.pipe = [] ∧ state.semParent = 0 ∧
      state.semChild = 0

theorem Balanced.awaits {file word : List UInt8} {done left rest : List (List UInt8)}
    {state : State} (balanced : Balanced file done left state)
    (next : left ++ [[]] = word :: rest) : state.Awaits file word := by
  rw [State.Awaits, balanced.flowing.framesOf_eq, balanced.printed, List.length_map, next]
  simp

/-- The schedule in which the child sends one word and the parent prints it before
the child ends. -/
def oneWordSchedule (length : Nat) : List Action :=
  List.replicate (length + 2) (.child 0) ++ [.child 1, .child length, .child 0, .child 0] ++
    [.parent 0, .parent 0, .parent 1, .parent length, .parent 0, .parent 0] ++
    [.child 1, .child 0] ++ [.parent 0, .parent 1, .parent 0] ++ [.child 0, .child 0]

/-- The state in which both processes have ended. -/
def ended (printed : List Line) : State where
  child := .exited
  parent := .exited
  pipe := []
  semParent := 0
  semChild := 0
  printed := printed
  stray := false

/-- Every run on a file of short words, from fresh semaphores and through a pipe
that holds two frames, delivers the words in lock step. -/
theorem reachable_delivers {capacity : Nat} {file : List UInt8} {state : State}
    (short : Short file) (large : 512 ≤ capacity)
    (reachable : Reachable (step capacity) (initial 0 1 file) state) :
    Delivers capacity file state := by
  obtain ⟨done, left, balanced⟩ := reachable_balanced short reachable
  refine {
    inOrder := ?_
    twoFrames := balanced.inFlight
    room := (balanced.room short).trans (by omega)
    length := ?_
    word := ?_
    progress := balanced.flowing.moves short.fits (Nat.le_refl 1) large
    complete := balanced.finished }
  · rw [balanced.printed, balanced.words, List.map_append]
    exact List.prefix_append _ _
  · intro parentEq
    obtain ⟨word, rest, next, inPipe⟩ := balanced.nextFrame parentEq
    exact ⟨word, balanced.awaits next, inPipe⟩
  · intro length got parentEq
    have bounds := balanced.restOfWord parentEq
    have reads := balanced.reads
    rw [parentEq] at reads
    obtain ⟨word, rest, rfl, lengthEq, shorter, stream⟩ := reads
    refine ⟨word, balanced.awaits rfl, lengthEq, shorter, ?_⟩
    rw [← List.append_assoc] at stream
    refine List.prefix_of_prefix_length_le ⟨_, rfl⟩ ⟨_, stream⟩ ?_
    rw [List.length_append]
    omega

theorem oneWord_delivers : Delivers 512 [97, 98] (ended [(2, [97, 98])]) := by
  have run : exec (step 512) (initial 0 1 [97, 98]) (oneWordSchedule 2) =
      some (ended [(2, [97, 98])]) := rfl
  exact reachable_delivers (by rw [Short]; decide) (Nat.le_refl 512) (reachable_of_exec run)

/-- A word with a zero byte is printed only up to it. -/
theorem zeroByte_truncated :
    ∃ state, Short [97, 0, 98] ∧ Reachable (step 512) (initial 0 1 [97, 0, 98]) state ∧
      state.printed.map Prod.snd = [[97]] ∧
      ¬state.printed.map Prod.snd <+: wordsOf [97, 0, 98] := by
  have run : exec (step 512) (initial 0 1 [97, 0, 98]) (oneWordSchedule 3) =
      some (ended [(3, [97])]) := rfl
  exact ⟨_, by rw [Short]; decide, reachable_of_exec run, rfl, by decide⟩

end CExamples.Pipe.Reliable
