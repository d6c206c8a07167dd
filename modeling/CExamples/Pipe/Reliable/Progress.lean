import CExamples.Pipe.Reliable.Lockstep

/-!
# Progress of the reliable pipe

Wherever the semaphores start, as long as `sem_child` does not start at zero, some
process can move until both have finished.  When the parent is blocked it has
acknowledged all it has read, so the child does not wait, and the pipe holds no
more than the frame that the child is writing, so there is room for the rest of it.
-/

namespace CExamples.Pipe.Reliable

open CExamples.Transition
open CExamples.Word

/-- Some process can move, and not only to look at an empty pipe again. -/
def Moves (capacity : Nat) (state : State) : Prop :=
  ∃ action next, step capacity state action = some next ∧ next ≠ state

theorem moves_of_child {capacity count : Nat} {state next : State}
    (stepped : childStep capacity state count = some next) (changed : next.child ≠ state.child) :
    Moves capacity state :=
  ⟨.child count, next, stepped, fun same => changed (congrArg State.child same)⟩

theorem moves_of_parent {capacity count : Nat} {state next : State}
    (stepped : parentStep state count = some next) (changed : next.parent ≠ state.parent) :
    Moves capacity state :=
  ⟨.parent count, next, stepped, fun same => changed (congrArg State.parent same)⟩

/-- A process at `fgetc` moves. -/
theorem moves_of_reading {capacity : Nat} {state : State} {file word : List UInt8}
    (childEq : state.child = .reading file word) : Moves capacity state := by
  have stepped : ∃ next, childStep capacity state 0 = some next ∧
      next.child ≠ .reading file word := by
    simp only [childStep, childEq]
    rcases file with _ | ⟨ch, file⟩
    · simp only
      split <;> exact ⟨_, rfl, by simp⟩
    · simp only
      split
      · split
        · exact ⟨_, rfl, by simp⟩
        · exact ⟨_, rfl, by simp⟩
      · split
        · exact ⟨_, rfl, by simp⟩
        · exact ⟨_, rfl, by simp⟩
  obtain ⟨next, stepped, changed⟩ := stepped
  exact moves_of_child stepped (childEq ▸ changed)

/-- A write that has room moves. -/
theorem exists_write {capacity : Nat} {state : State} {data : List UInt8}
    {after : List UInt8 → Child} (reader : state.hasReader = true) (nonempty : data ≠ [])
    (room : state.pipe.length < capacity) :
    ∃ count next, write capacity state data count after = some next ∧ next ≠ state := by
  obtain ⟨count, pipe, remaining, pushed⟩ := exists_push nonempty room
  refine ⟨count, { state with pipe := pipe, child := after remaining }, ?_, ?_⟩
  · rw [write, if_pos reader, pushed]
    rfl
  · intro same
    have pipeEq : pipe = state.pipe := congrArg State.pipe same
    have written := congrArg List.length (append_of_push pushed)
    have shorter := (suffix_of_push pushed).2
    rw [List.length_append, List.length_append, pipeEq] at written
    omega

/-- A read of what is there moves. -/
theorem exists_read {state : State} {wanted : Nat} {after : List UInt8 → Parent}
    (wants : 0 < wanted) (nonempty : state.pipe ≠ []) :
    ∃ count next, read state wanted count after = some next ∧ next ≠ state := by
  obtain ⟨count, got, pipe, pulled⟩ := exists_pull wants nonempty
  obtain ⟨split, gotSome, _⟩ := append_of_pull pulled
  refine ⟨count, { state with pipe := pipe, parent := after got }, ?_, ?_⟩
  · rw [read, if_neg (fun empty => nonempty empty.1), pulled]
    rfl
  · intro same
    have pipeEq : pipe = state.pipe := congrArg State.pipe same
    have lengths := congrArg List.length split
    have positive := List.length_pos_iff.mpr gotSome
    rw [List.length_append, pipeEq] at lengths
    omega

/-- The parent cannot move: it has finished, waits for a post, or reads from an empty
pipe. -/
def State.ParentBlocked (state : State) : Prop :=
  match state.parent with
  | .wait => state.semParent = 0
  | .readLength => state.pipe = []
  | .readWord _ _ => state.pipe = []
  | .exited => True
  | _ => False

/-- Where the parent is blocked. -/
theorem State.ParentBlocked.cases {state : State} (blocked : state.ParentBlocked) :
    state.parent = .wait ∧ state.semParent = 0 ∨
      (state.parent = .readLength ∨ ∃ length got, state.parent = .readWord length got) ∧
        state.pipe = [] ∨
      state.parent = .exited := by
  cases parentEq : state.parent with
  | wait =>
      simp only [State.ParentBlocked, parentEq] at blocked
      exact Or.inl ⟨rfl, blocked⟩
  | readLength =>
      simp only [State.ParentBlocked, parentEq] at blocked
      exact Or.inr (Or.inl ⟨Or.inl rfl, blocked⟩)
  | readWord length got =>
      simp only [State.ParentBlocked, parentEq] at blocked
      exact Or.inr (Or.inl ⟨Or.inr ⟨length, got, rfl⟩, blocked⟩)
  | exited => exact Or.inr (Or.inr rfl)
  | _ => simp [State.ParentBlocked, parentEq] at blocked

/-- More words have more frame bytes. -/
theorem length_frames_lt_of_suffix {first second : List (List UInt8)} (suffix : first <:+ second)
    (fewer : first.length < second.length) :
    (frames byteLength first).length < (frames byteLength second).length := by
  obtain ⟨before, rfl⟩ := suffix
  rcases before with _ | ⟨word, before⟩
  · simp at fewer
  · simp only [List.cons_append, frames_cons, frames_append, List.length_append, length_frame]
    omega

namespace Flowing

variable {startParent startChild : Nat} {file : List UInt8} {done left : List (List UInt8)}
  {state : State} {capacity : Nat}

/-- A parent that is not blocked moves. -/
theorem parent_moves (flowing : Flowing startParent startChild file done left state)
    (free : ¬state.ParentBlocked) : Moves capacity state := by
  have moves {parent : Parent} {next : State} (parentEq : state.parent = parent)
      (stepped : parentStep state 0 = some next) (changed : next.parent ≠ parent) :
      Moves capacity state := moves_of_parent stepped (parentEq ▸ changed)
  cases parentEq : state.parent with
  | start => exact moves parentEq (by rw [parentStep, parentEq]) (by simp)
  | wait =>
      simp only [State.ParentBlocked, parentEq] at free
      obtain ⟨semParent, count⟩ := Nat.exists_eq_succ_of_ne_zero free
      have stepped : parentStep state 0 =
          some { state with semParent := semParent, parent := .readLength } := by
        rw [parentStep, parentEq, count]
        rfl
      exact moves parentEq stepped (by simp)
  | readLength =>
      simp only [State.ParentBlocked, parentEq] at free
      obtain ⟨count, next, stepped, changed⟩ := exists_read Nat.one_pos free
      exact ⟨.parent count, next, by rw [step, parentStep, parentEq]; exact stepped, changed⟩
  | readWord length got =>
      simp only [State.ParentBlocked, parentEq] at free
      have reads := flowing.reads
      rw [parentEq] at reads
      obtain ⟨word, rest, _, lengthEq, shorter, _⟩ := reads
      obtain ⟨count, next, stepped, changed⟩ :=
        exists_read (show 0 < length.toNat - got.length by omega) free
      exact ⟨.parent count, next, by rw [step, parentStep, parentEq]; exact stepped, changed⟩
  | print length word => exact moves parentEq (by rw [parentStep, parentEq]) (by simp)
  | post => exact moves parentEq (by rw [parentStep, parentEq]) (by simp)
  | closing => exact moves parentEq (by rw [parentStep, parentEq]) (by simp)
  | exited =>
      simp only [State.ParentBlocked, parentEq] at free
      exact absurd trivial free

/-- The child moves where it has room and does not wait. -/
theorem child_moves (flowing : Flowing startParent startChild file done left state)
    (notExited : state.child ≠ .exited)
    (room : state.child.current ≠ [] → state.pipe.length < capacity)
    (token : ∀ caller, state.child = .wait caller → state.semChild ≠ 0) :
    Moves capacity state := by
  have moves {child : Child} {next : State} (childEq : state.child = child)
      (stepped : childStep capacity state 0 = some next) (changed : next.child ≠ child) :
      Moves capacity state := moves_of_child stepped (childEq ▸ changed)
  have fine := flowing.fine
  have reader := flowing.hasReader
  cases childEq : state.child with
  | start file => exact moves childEq (by rw [childStep, childEq]) (by simp)
  | reading file word => exact moves_of_reading childEq
  | writeLength word caller =>
      rw [childEq] at room reader
      have fits := room (List.cons_ne_nil _ _)
      obtain ⟨count, next, stepped, changed⟩ :=
        exists_write (reader (List.cons_ne_nil _ _)) (List.cons_ne_nil _ _) fits
      exact ⟨.child count, next, by rw [step, childStep, childEq]; exact stepped, changed⟩
  | writeWord word remaining caller =>
      rw [childEq] at room reader fine
      have fits := room fine.1
      obtain ⟨count, next, stepped, changed⟩ :=
        exists_write (reader (List.append_ne_nil_of_left_ne_nil fine.1 _)) fine.1 fits
      exact ⟨.child count, next, by rw [step, childStep, childEq]; exact stepped, changed⟩
  | post word caller => exact moves childEq (by rw [childStep, childEq]) (by simp)
  | wait caller =>
      obtain ⟨semChild, count⟩ := Nat.exists_eq_succ_of_ne_zero (token caller childEq)
      have stepped : ∃ next, childStep capacity state 0 = some next ∧
          next.child ≠ .wait caller := by
        rw [childStep, childEq, count]
        exact ⟨_, rfl, by cases caller <;> simp⟩
      obtain ⟨next, stepped, changed⟩ := stepped
      exact moves childEq stepped changed
  | closing => exact moves childEq (by rw [childStep, childEq]) (by simp)
  | exited => exact absurd childEq notExited
  | failed =>
      rw [childEq] at fine
      exact fine.elim

/-- What the parent still has to read belongs to the last frames. -/
theorem suffix_framesOf (flowing : Flowing startParent startChild file done left state) :
    left ++ [[]] <:+ framesOf file :=
  ⟨done, flowing.framesOf_eq.symm⟩

/-- While the parent waits at an empty semaphore the child owes it a frame. -/
theorem left_suffix_unposted (flowing : Flowing startParent startChild file done left state)
    (parentEq : state.parent = .wait) (empty : state.semParent = 0) :
    left ++ [[]] <:+ state.child.unposted ∧
      left.length + 1 + startParent = state.child.unposted.length := by
  have counts := flowing.parentCount
  rw [parentEq, empty] at counts
  simp only [Parent.untaken] at counts
  constructor
  · apply List.suffix_of_suffix_length_le flowing.suffix_framesOf flowing.unposted
    rw [List.length_append, List.length_singleton]
    omega
  · omega

/-- While the parent reads from an empty pipe the child owes it the rest of a frame. -/
theorem stream_ne_nil (flowing : Flowing startParent startChild file done left state)
    (reading : state.parent = .readLength ∨ ∃ length got, state.parent = .readWord length got)
    (empty : state.pipe = []) :
    (frames byteLength (left.tail ++ [[]])).length < state.child.unwritten.length ∨
      left = [] ∧ state.child.unwritten ≠ [] := by
  have reads := flowing.reads
  rw [empty, List.nil_append] at reads
  rcases reading with parentEq | ⟨length, got, parentEq⟩
  · rw [parentEq] at reads
    have unwritten : state.child.unwritten = frames byteLength (left ++ [[]]) := reads
    rw [unwritten]
    rcases left with _ | ⟨word, rest⟩
    · exact Or.inr ⟨rfl, List.cons_ne_nil _ _⟩
    · left
      exact length_frames_lt_of_suffix (List.suffix_cons word (rest ++ [[]])) (by simp)
  · rw [parentEq] at reads
    obtain ⟨word, rest, rfl, _, shorter, stream⟩ := reads
    have counts := congrArg List.length stream
    simp only [List.length_append] at counts
    left
    rw [List.tail_cons]
    omega

/-- While the parent reads from an empty pipe and the child waits, a frame is left for
each word that was not printed. -/
theorem length_left_le (flowing : Flowing startParent startChild file done left state)
    (reading : state.parent = .readLength ∨ ∃ length got, state.parent = .readWord length got)
    (empty : state.pipe = []) {caller : Caller} (childEq : state.child = .wait caller) :
    left.length ≤ caller.later.length := by
  have unwritten : state.child.unwritten = frames byteLength caller.later := by
    rw [childEq]
    rfl
  rcases flowing.stream_ne_nil reading empty with longer | ⟨rfl, _⟩
  · by_contra fewer
    have unposted : caller.later <:+ framesOf file := by
      have unposted := flowing.unposted
      rwa [childEq] at unposted
    have tail : left.tail ++ [[]] <:+ left ++ [[]] :=
      List.suffix_append_inj_of_length_eq rfl |>.mpr ⟨List.tail_suffix left, rfl⟩
    have within : caller.later <:+ left.tail ++ [[]] := by
      apply List.suffix_of_suffix_length_le unposted (tail.trans flowing.suffix_framesOf)
      rw [List.length_append, List.length_tail, List.length_singleton]
      omega
    have atMost := length_frames_le_of_suffix byteLength within
    rw [unwritten] at longer
    omega
  · exact Nat.zero_le _

/-- While the parent is blocked the pipe holds at most what the child has written of
one frame. -/
theorem blocked_room (flowing : Flowing startParent startChild file done left state)
    (fits : Fits file) (blocked : state.ParentBlocked) (writes : state.child.current ≠ []) :
    state.pipe.length ≤ maxWordLength := by
  have reads := flowing.reads
  rcases blocked.cases with ⟨parentEq, none⟩ | ⟨_, empty⟩ | parentEq
  · have owed := (flowing.left_suffix_unposted parentEq none).1
    rw [parentEq] at reads
    have stream : state.pipe ++ state.child.unwritten = frames byteLength (left ++ [[]]) := reads
    have atMost := length_frames_le_of_suffix byteLength owed
    have counts := congrArg List.length stream
    have bounds := flowing.fits_unposted fits
    cases childEq : state.child with
    | writeLength word caller =>
        rw [childEq] at counts atMost
        simp only [Child.unwritten, Child.current, Child.unbegun, Child.unposted, frames_cons,
          List.length_append] at counts atMost
        omega
    | writeWord word remaining caller =>
        rw [childEq] at counts atMost writes bounds
        have bound := bounds word List.mem_cons_self
        have positive := List.length_pos_iff.mpr writes
        simp only [Child.unwritten, Child.current, Child.unbegun, Child.unposted, frames_cons,
          List.length_append, length_frame] at counts atMost positive
        omega
    | _ =>
        rw [childEq] at writes
        exact absurd rfl writes
  · rw [empty]
    exact Nat.zero_le _
  · rw [parentEq] at reads
    rw [(List.append_eq_nil_iff.mp reads.2).1]
    exact Nat.zero_le _

/-- While the parent is blocked the child has an acknowledgement left, unless
`sem_child` started without one. -/
theorem blocked_token (flowing : Flowing startParent startChild file done left state)
    (acknowledged : 1 ≤ startChild) (blocked : state.ParentBlocked) {caller : Caller}
    (childEq : state.child = .wait caller) : state.semChild ≠ 0 := by
  have counts := flowing.childCount
  rw [childEq] at counts
  simp only [Child.unwaited] at counts
  rcases blocked.cases with ⟨parentEq, none⟩ | ⟨reading, empty⟩ | parentEq
  · have owed := (flowing.left_suffix_unposted parentEq none).2
    rw [childEq] at owed
    rw [parentEq] at counts
    simp only [Child.unposted, Parent.unacked] at owed counts
    omega
  · have owed := flowing.length_left_le reading empty childEq
    have unacked : state.parent.unacked left.length = left.length := by
      rcases reading with parentEq | ⟨length, got, parentEq⟩
      · rw [parentEq]
        rfl
      · rw [parentEq]
        rfl
    omega
  · rw [parentEq] at counts
    simp only [Parent.unacked] at counts
    omega

/-- After the child has finished the parent is blocked only when it has, too. -/
theorem blocked_exited (flowing : Flowing startParent startChild file done left state)
    (blocked : state.ParentBlocked) (childEq : state.child = .exited) :
    state.parent = .exited := by
  rcases blocked.cases with ⟨parentEq, none⟩ | ⟨reading, empty⟩ | parentEq
  · have owed := (flowing.left_suffix_unposted parentEq none).2
    rw [childEq] at owed
    simp only [Child.unposted, List.length_nil] at owed
    omega
  · have unwritten : state.child.unwritten = [] := by
      rw [childEq]
      rfl
    rcases flowing.stream_ne_nil reading empty with longer | ⟨_, nonempty⟩
    · rw [unwritten] at longer
      cases longer
    · exact absurd unwritten nonempty
  · exact parentEq

/-- Some process moves until both have finished. -/
theorem moves (flowing : Flowing startParent startChild file done left state) (fits : Fits file)
    (acknowledged : 1 ≤ startChild) (large : 512 ≤ capacity)
    (running : ¬(state.child = .exited ∧ state.parent = .exited)) : Moves capacity state := by
  by_cases blocked : state.ParentBlocked
  · apply flowing.child_moves
    · exact fun childEq => running ⟨childEq, flowing.blocked_exited blocked childEq⟩
    · intro writes
      have atMost := flowing.blocked_room fits blocked writes
      rw [maxWordLength] at atMost
      omega
    · exact fun caller childEq => flowing.blocked_token acknowledged blocked childEq
  · exact flowing.parent_moves blocked

end Flowing

end CExamples.Pipe.Reliable
