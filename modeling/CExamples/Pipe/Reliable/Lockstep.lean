import CExamples.Pipe.Reliable.Core

/-!
# Lock step through the reliable pipe

The invariant has two parts.  As streams: what is in the pipe and what the child
has not written yet is what the parent has not read yet.  As counts: each
semaphore's counter and the waits and posts that are still to come balance.  The
two parts together place the whole next frame in the pipe whenever the parent
reads, and bound the pipe by two frames.
-/

namespace CExamples.Pipe.Reliable

open CExamples.Transition
open CExamples.Word

/-! ## What is still to come -/

/-- The frames that the child sends for a file. -/
def framesOf (file : List UInt8) : List (List UInt8) :=
  wordsOf file ++ [[]]

/-- The words that `send_word` is called with later. -/
def Caller.later : Caller → List (List UInt8)
  | .loop file => framesOf file
  | .lastWord => [[]]
  | .terminator => []

namespace Child

/-- The frames that the child has not posted yet. -/
def unposted : Child → List (List UInt8)
  | .start file => framesOf file
  | .reading file word => framesOf (word ++ file)
  | .writeLength word caller => word :: caller.later
  | .writeWord word _ caller => word :: caller.later
  | .post word caller => word :: caller.later
  | .wait caller => caller.later
  | .closing => []
  | .exited => []
  | .failed => []

/-- The frames that the child has not begun to write. -/
def unbegun : Child → List (List UInt8)
  | .start file => framesOf file
  | .reading file word => framesOf (word ++ file)
  | .writeLength _ caller => caller.later
  | .writeWord _ _ caller => caller.later
  | .post _ caller => caller.later
  | .wait caller => caller.later
  | .closing => []
  | .exited => []
  | .failed => []

/-- What is left to write of the frame that the child is writing. -/
def current : Child → List UInt8
  | .writeLength word _ => frame byteLength word
  | .writeWord _ remaining _ => remaining
  | _ => []

/-- The bytes that the child has not written yet. -/
def unwritten (child : Child) : List UInt8 :=
  child.current ++ frames byteLength child.unbegun

/-- The waits for `sem_child` that are still to come. -/
def unwaited : Child → Nat
  | .wait caller => caller.later.length + 1
  | child => child.unposted.length

/-- What the child's own variables satisfy. -/
def Fine : Child → Prop
  | .reading _ word => ∀ letter ∈ word, isDelimiter letter = false
  | .writeWord word remaining _ => remaining ≠ [] ∧ remaining <:+ word
  | .failed => False
  | _ => True

end Child

namespace Parent

/-- The waits for `sem_parent` that are still to come, when `left` words have not
been printed. -/
def untaken (left : Nat) : Parent → Nat
  | .start => left + 1
  | .wait => left + 1
  | .post => left + 1
  | .readLength => left
  | .readWord _ _ => left
  | .print _ _ => left
  | .closing => 0
  | .exited => 0

/-- The posts to `sem_child` that are still to come. -/
def unacked (left : Nat) : Parent → Nat
  | .post => left + 1
  | .closing => 0
  | .exited => 0
  | _ => left

/-- `stream` is what the parent still has to read to print the words `left`. -/
def Reads (left : List (List UInt8)) (stream : List UInt8) : Parent → Prop
  | .readWord length got =>
      ∃ word rest, left = word :: rest ∧ word.length = length.toNat ∧ got.length < word.length ∧
        got ++ stream = word ++ frames byteLength (rest ++ [[]])
  | .print length word =>
      ∃ rest, left = word :: rest ∧ word.length = length.toNat ∧
        stream = frames byteLength (rest ++ [[]])
  | .closing => left = [] ∧ stream = []
  | .exited => left = [] ∧ stream = []
  | _ => stream = frames byteLength (left ++ [[]])

end Parent

/-- The line printed for a word. -/
def line (word : List UInt8) : Line :=
  (UInt8.ofNat word.length, cString word)

/-- The invariant of all runs on `file`, after the lines of `done` were printed
and before those of `left`. -/
structure Balanced (file : List UInt8) (done left : List (List UInt8)) (state : State) : Prop where
  words : wordsOf file = done ++ left
  printed : state.printed = done.map line
  reads : state.parent.Reads left (state.pipe ++ state.child.unwritten)
  fine : state.child.Fine
  unposted : state.child.unposted <:+ framesOf file
  parentCount : state.semParent + state.child.unposted.length = state.parent.untaken left.length
  childCount : state.semChild + state.parent.unacked left.length = state.child.unwaited
  inside : state.stray = false

/-- The words of the file fit into the buffers with their terminators. -/
def Short (file : List UInt8) : Prop :=
  ∀ word ∈ wordsOf file, word.length ≤ 254

/-- The words of the file fit into the buffers, not all with their terminators. -/
def Fits (file : List UInt8) : Prop :=
  ∀ word ∈ wordsOf file, word.length ≤ maxWordLength

theorem Short.fits {file : List UInt8} (short : Short file) : Fits file := by
  intro word member
  rw [maxWordLength]
  exact (short word member).trans (by decide)

/-- The invariant of all runs on `file` whose semaphores started at `startParent`
and `startChild`, and in which the buffers may have overflown by a terminator. -/
structure Flowing (startParent startChild : Nat) (file : List UInt8)
    (done left : List (List UInt8)) (state : State) : Prop where
  words : wordsOf file = done ++ left
  printed : state.printed = done.map line
  reads : state.parent.Reads left (state.pipe ++ state.child.unwritten)
  fine : state.child.Fine
  unposted : state.child.unposted <:+ framesOf file
  parentCount : state.semParent + state.child.unposted.length =
    state.parent.untaken left.length + startParent
  childCount : state.semChild + state.parent.unacked left.length + 1 =
    state.child.unwaited + startChild

/-! ## Steps of the child -/

/-- What a step of the child keeps. -/
structure ChildKeeps (state next : State) : Prop where
  parent : next.parent = state.parent
  printed : next.printed = state.printed
  stream : next.pipe ++ next.child.unwritten = state.pipe ++ state.child.unwritten
  fine : next.child.Fine
  unposted : next.child.unposted <:+ state.child.unposted
  parentCount : next.semParent + next.child.unposted.length =
    state.semParent + state.child.unposted.length
  childCount : next.semChild + state.child.unwaited = state.semChild + next.child.unwaited
  inside : next.stray = state.stray

/-- The child has not begun to write its next frame. -/
def Child.AtFrame (child : Child) : Prop :=
  child.unwritten = frames byteLength child.unposted ∧ child.unwaited = child.unposted.length

/-- A step between two frames that changes only how the next ones are held. -/
theorem keeps_of_same {state : State} {child : Child} (before : state.child.AtFrame)
    (after : child.AtFrame) (unposted : child.unposted = state.child.unposted)
    (fine : child.Fine) : ChildKeeps state { state with child := child } where
  parent := rfl
  printed := rfl
  stream := by rw [after.1, before.1, unposted]
  fine := fine
  unposted := ⟨[], by rw [List.nil_append, unposted]⟩
  parentCount := by rw [unposted]
  childCount := by rw [after.2, before.2, unposted]
  inside := rfl

/-- A write of some bytes. -/
theorem keeps_of_write {capacity count : Nat} {state after : State} {data : List UInt8}
    {next : List UInt8 → Child} (rest : List UInt8)
    (stepped : write capacity state data count next = some after)
    (reader : state.hasReader = true)
    (unwritten : state.child.unwritten = data ++ rest)
    (written : ∀ remaining, remaining <:+ data → remaining.length < data.length →
      (next remaining).unwritten = remaining ++ rest ∧
        (next remaining).unposted = state.child.unposted ∧
        (next remaining).unwaited = state.child.unwaited ∧ (next remaining).Fine) :
    ChildKeeps state { after with stray := state.stray } := by
  rw [write, if_pos reader] at stepped
  obtain ⟨⟨pipe, remaining⟩, pushed, rfl⟩ := Option.map_eq_some_iff.mp stepped
  obtain ⟨suffix, shorter⟩ := suffix_of_push pushed
  obtain ⟨unwrittenEq, unposted, unwaited, fine⟩ := written remaining suffix shorter
  exact {
    parent := rfl
    printed := rfl
    stream := by
      rw [unwrittenEq, unwritten, ← List.append_assoc, append_of_push pushed, List.append_assoc]
    fine := fine
    unposted := ⟨[], by rw [List.nil_append, unposted]⟩
    parentCount := by rw [unposted]
    childCount := by rw [unwaited]
    inside := rfl }

/-- The state after the child has dealt with the next letter. -/
def State.resume (state : State) : Outcome UInt8 → State
  | .send word file => state.sendWord word (.loop file)
  | .sendLast word => state.sendWord word .lastWord
  | .finish => { state with child := .writeLength [] .terminator }
  | .read file word => { state with child := .reading file word }
  | .refuse => { state with child := .failed }

/-- A step at `fgetc`. -/
theorem childStep_reading {capacity count : Nat} {state : State} {file word : List UInt8}
    (childEq : state.child = .reading file word) :
    childStep capacity state count =
      some (state.resume (readNext isDelimiter maxWordLength file word)) := by
  rw [childStep, childEq]
  cases file with
  | nil =>
      simp only [readNext]
      split <;> rfl
  | cons ch file =>
      simp only [readNext]
      split
      · split <;> rfl
      · split <;> rfl

/-- Where `child_process` goes on after an acknowledgement. -/
def Caller.next : Caller → Child
  | .loop file => .reading file []
  | .lastWord => .writeLength [] .terminator
  | .terminator => .closing

/-- What a step of the child does. -/
inductive ChildMoves (capacity count : Nat) (state : State) : State → Prop
  | opens {file : List UInt8} (childEq : state.child = .start file) :
      ChildMoves capacity count state { state with child := .reading file [] }
  | reads {file word : List UInt8} (childEq : state.child = .reading file word) :
      ChildMoves capacity count state
        (state.resume (readNext isDelimiter maxWordLength file word))
  | writesLength {word : List UInt8} {caller : Caller} {next : State}
      (childEq : state.child = .writeLength word caller)
      (written : write capacity state [UInt8.ofNat word.length] count (fun _ =>
        if word.length > 0 then .writeWord word word caller else .post word caller) =
          some next) :
      ChildMoves capacity count state next
  | writesWord {word remaining : List UInt8} {caller : Caller} {next : State}
      (childEq : state.child = .writeWord word remaining caller)
      (written : write capacity state remaining count (fun remaining =>
        if remaining.length > 0 then .writeWord word remaining caller else .post word caller) =
          some next) :
      ChildMoves capacity count state next
  | posts {word : List UInt8} {caller : Caller} (childEq : state.child = .post word caller) :
      ChildMoves capacity count state
        { state with semParent := state.semParent + 1, child := .wait caller }
  | waits {caller : Caller} {semChild : Nat} (childEq : state.child = .wait caller)
      (waited : state.semChild = semChild + 1) :
      ChildMoves capacity count state { state with semChild := semChild, child := caller.next }
  | exits (childEq : state.child = .closing) :
      ChildMoves capacity count state { state with child := .exited }

theorem childStep_moves {capacity count : Nat} {state next : State}
    (stepped : childStep capacity state count = some next) :
    ChildMoves capacity count state next := by
  cases childEq : state.child with
  | start file =>
      simp only [childStep, childEq] at stepped
      cases stepped
      exact .opens childEq
  | reading file word =>
      rw [childStep_reading childEq] at stepped
      cases stepped
      exact .reads childEq
  | writeLength word caller =>
      simp only [childStep, childEq] at stepped
      exact .writesLength childEq stepped
  | writeWord word remaining caller =>
      simp only [childStep, childEq] at stepped
      exact .writesWord childEq stepped
  | post word caller =>
      simp only [childStep, childEq] at stepped
      cases stepped
      exact .posts childEq
  | wait caller =>
      simp only [childStep, childEq] at stepped
      rcases Option.map_eq_some_iff.mp stepped with ⟨semChild, waited, rfl⟩
      have after (child : Child) (same : caller.next = child) :
          ChildMoves capacity count state { state with semChild := semChild, child := child } := by
        rw [← same]
        exact .waits childEq (semWait_eq_some.mp waited)
      cases caller with
      | loop file => exact after _ rfl
      | lastWord => exact after _ rfl
      | terminator => exact after _ rfl
  | closing =>
      simp only [childStep, childEq] at stepped
      cases stepped
      exact .exits childEq
  | exited =>
      simp only [childStep, childEq] at stepped
      cases stepped
  | failed =>
      simp only [childStep, childEq] at stepped
      cases stepped

/-- Reading does not change the frames that are still to be sent. -/
theorem framesOf_eq_of_reads {limit : Nat} {file word : List UInt8} {outcome : Outcome UInt8}
    (reads : Reads isDelimiter limit file word outcome)
    (letters : ∀ letter ∈ word, isDelimiter letter = false) (accepted : outcome ≠ .refuse) :
    outcome.words isDelimiter ++ [[]] = framesOf (word ++ file) := by
  rw [reads.words_eq letters accepted]
  rfl

/-- Between two frames the child reads on. -/
theorem keeps_of_reading {state : State} {file word : List UInt8}
    (childEq : state.child = .reading file word)
    (letters : ∀ letter ∈ word, isDelimiter letter = false)
    (short : ∀ other ∈ framesOf (word ++ file), other.length ≤ maxWordLength) :
    ChildKeeps state { state.resume (readNext isDelimiter maxWordLength file word) with
      stray := state.stray } := by
  have before : state.child.AtFrame := by
    rw [childEq]
    exact ⟨rfl, rfl⟩
  have same {child : Child} (after : child.AtFrame)
      (unposted : child.unposted = framesOf (word ++ file)) (fine : child.Fine) :
      ChildKeeps state { state with child := child } :=
    keeps_of_same before after (by rw [unposted, childEq, Child.unposted]) fine
  have reads := reads_readNext isDelimiter maxWordLength file word
  generalize readNext isDelimiter maxWordLength file word = outcome at reads ⊢
  have accepted := reads.accepted letters fun other member =>
    short other (List.mem_append_left _ member)
  have unposted := framesOf_eq_of_reads reads letters accepted
  cases outcome with
  | send sent rest => exact same ⟨rfl, rfl⟩ unposted trivial
  | sendLast sent => exact same ⟨rfl, rfl⟩ unposted trivial
  | finish => exact same ⟨rfl, rfl⟩ unposted trivial
  | read rest held => exact same ⟨rfl, rfl⟩ unposted (reads.letters letters)
  | refuse => exact absurd rfl accepted

/-- The length byte is written. -/
theorem keeps_of_writeLength {capacity count : Nat} {state next : State} {word : List UInt8}
    {caller : Caller} (childEq : state.child = .writeLength word caller)
    (reader : state.hasReader = true)
    (written : write capacity state [UInt8.ofNat word.length] count (fun _ =>
      if word.length > 0 then .writeWord word word caller else .post word caller) = some next) :
    ChildKeeps state { next with stray := state.stray } := by
  refine keeps_of_write (word ++ frames byteLength caller.later) written reader ?_ ?_
  · rw [childEq]
    rfl
  · intro remaining _ shorter
    have written : remaining = [] :=
      List.length_eq_zero_iff.mp (by rw [List.length_singleton] at shorter; omega)
    rw [childEq, written]
    split
    · rename_i nonempty
      exact ⟨rfl, rfl, rfl, List.length_pos_iff.mp nonempty, List.suffix_refl word⟩
    · rename_i empty
      rw [gt_iff_lt, List.length_pos_iff, not_not] at empty
      subst empty
      exact ⟨rfl, rfl, rfl, trivial⟩

/-- A part of the word is written. -/
theorem keeps_of_writeWord {capacity count : Nat} {state next : State}
    {word remaining : List UInt8} {caller : Caller}
    (childEq : state.child = .writeWord word remaining caller) (suffix : remaining <:+ word)
    (reader : state.hasReader = true)
    (written : write capacity state remaining count (fun remaining =>
      if remaining.length > 0 then .writeWord word remaining caller else .post word caller) =
        some next) :
    ChildKeeps state { next with stray := state.stray } := by
  refine keeps_of_write (frames byteLength caller.later) written reader ?_ ?_
  · rw [childEq]
    rfl
  · intro left shorter _
    rw [childEq]
    split
    · rename_i nonempty
      exact ⟨rfl, rfl, rfl, List.length_pos_iff.mp nonempty, shorter.trans suffix⟩
    · rename_i empty
      rw [gt_iff_lt, List.length_pos_iff, not_not] at empty
      subst empty
      exact ⟨rfl, rfl, rfl, trivial⟩

/-- An acknowledgement is taken. -/
theorem keeps_of_wait {state : State} {caller : Caller} {semChild : Nat}
    (childEq : state.child = .wait caller) (waited : state.semChild = semChild + 1) :
    ChildKeeps state { state with semChild := semChild, child := caller.next } := by
  refine ⟨rfl, rfl, ?_, ?_, ?_, ?_, ?_, rfl⟩
  · rw [childEq]
    cases caller <;> rfl
  · cases caller
    · exact nofun
    · trivial
    · trivial
  · rw [childEq]
    cases caller <;> exact List.suffix_refl _
  · rw [childEq]
    cases caller <;> rfl
  · rw [childEq, waited]
    cases caller <;> simp only [Caller.next, Child.unwaited, Child.unposted, Caller.later,
      List.length_nil, List.nil_append] <;> omega

/-- A step of the child keeps the stream, the balance of both semaphores and the
order of the frames. -/
theorem childStep_keeps {capacity count : Nat} {state next : State}
    (stepped : childStep capacity state count = some next) (fine : state.child.Fine)
    (fits : ∀ word ∈ state.child.unposted, word.length ≤ maxWordLength)
    (reader : state.child.unwritten ≠ [] → state.hasReader = true) :
    ChildKeeps state { next with stray := state.stray } := by
  cases childStep_moves stepped with
  | opens childEq =>
      refine keeps_of_same ?_ ⟨rfl, rfl⟩ ?_ nofun
      · rw [childEq]
        exact ⟨rfl, rfl⟩
      · rw [childEq]
        rfl
  | reads childEq =>
      rw [childEq] at fine fits
      exact keeps_of_reading childEq fine fits
  | writesLength childEq written =>
      rw [childEq] at reader
      exact keeps_of_writeLength childEq (reader (List.cons_ne_nil _ _)) written
  | @writesWord word remaining caller _ childEq written =>
      rw [childEq] at reader fine
      have writes := List.append_ne_nil_of_left_ne_nil fine.1 (frames byteLength caller.later)
      exact keeps_of_writeWord childEq fine.2 (reader writes) written
  | posts childEq =>
      refine ⟨rfl, rfl, ?_, trivial, ?_, ?_, ?_, rfl⟩ <;> rw [childEq]
      · rfl
      · exact List.suffix_cons _ _
      · simp only [Child.unposted, List.length_cons]
        omega
      · rfl
  | waits childEq waited => exact keeps_of_wait childEq waited
  | exits childEq =>
      refine ⟨rfl, rfl, ?_, trivial, ?_, ?_, ?_, rfl⟩ <;> rw [childEq]
      · rfl
      · exact List.suffix_refl _
      · rfl
      · rfl

/-! ## Steps of the parent -/

theorem read_eq_some {state next : State} {wanted count : Nat} {after : List UInt8 → Parent}
    (stepped : read state wanted count after = some next) :
    next = state ∨ ∃ got pipe, pull state.pipe wanted count = some (got, pipe) ∧
      next = { state with pipe := pipe, parent := after got } := by
  unfold read at stepped
  split at stepped
  · cases stepped
    exact Or.inl rfl
  · obtain ⟨⟨got, pipe⟩, pulled, rfl⟩ := Option.map_eq_some_iff.mp stepped
    exact Or.inr ⟨got, pipe, pulled, rfl⟩

/-- What a step of the parent does. -/
inductive ParentMoves (count : Nat) (state : State) : State → Prop
  | opens (parentEq : state.parent = .start) :
      ParentMoves count state { state with parent := .wait }
  | waits {semParent : Nat} (parentEq : state.parent = .wait)
      (waited : state.semParent = semParent + 1) :
      ParentMoves count state { state with semParent := semParent, parent := .readLength }
  | readsLength {next : State} (parentEq : state.parent = .readLength)
      (taken : read state 1 count (fun got =>
        if got.headD 0 = 0 then .closing else .readWord (got.headD 0) []) = some next) :
      ParentMoves count state next
  | readsWord {length : UInt8} {got : List UInt8} {next : State}
      (parentEq : state.parent = .readWord length got)
      (taken : read state (length.toNat - got.length) count (fun more =>
        if (got ++ more).length < length.toNat then .readWord length (got ++ more)
        else .print length (got ++ more)) = some next) :
      ParentMoves count state next
  | prints {length : UInt8} {word : List UInt8} (parentEq : state.parent = .print length word) :
      ParentMoves count state { state.terminate length.toNat with
        printed := state.printed ++ [(length, cString word)]
        parent := .post }
  | posts (parentEq : state.parent = .post) :
      ParentMoves count state { state with semChild := state.semChild + 1, parent := .wait }
  | exits (parentEq : state.parent = .closing) :
      ParentMoves count state { state with parent := .exited }

theorem parentStep_moves {count : Nat} {state next : State}
    (stepped : parentStep state count = some next) : ParentMoves count state next := by
  cases parentEq : state.parent with
  | start =>
      simp only [parentStep, parentEq] at stepped
      cases stepped
      exact .opens parentEq
  | wait =>
      simp only [parentStep, parentEq] at stepped
      rcases Option.map_eq_some_iff.mp stepped with ⟨semParent, waited, rfl⟩
      exact .waits parentEq (semWait_eq_some.mp waited)
  | readLength =>
      simp only [parentStep, parentEq] at stepped
      exact .readsLength parentEq stepped
  | readWord length got =>
      simp only [parentStep, parentEq] at stepped
      exact .readsWord parentEq stepped
  | print length word =>
      simp only [parentStep, parentEq] at stepped
      cases stepped
      exact .prints parentEq
  | post =>
      simp only [parentStep, parentEq] at stepped
      cases stepped
      exact .posts parentEq
  | closing =>
      simp only [parentStep, parentEq] at stepped
      cases stepped
      exact .exits parentEq
  | exited =>
      simp only [parentStep, parentEq] at stepped
      cases stepped

section ParentSteps

variable {startParent startChild : Nat} {file : List UInt8} {done left : List (List UInt8)}
  {state : State}

/-- The parent moved on in the stream, and neither semaphore changed. -/
theorem Flowing.advance (flowing : Flowing startParent startChild file done left state)
    {pipe : List UInt8} {parent : Parent}
    (reads : parent.Reads left (pipe ++ state.child.unwritten))
    (untaken : parent.untaken left.length = state.parent.untaken left.length)
    (unacked : parent.unacked left.length = state.parent.unacked left.length) :
    Flowing startParent startChild file done left
      { state with pipe := pipe, parent := parent } where
  words := flowing.words
  printed := flowing.printed
  reads := reads
  fine := flowing.fine
  unposted := flowing.unposted
  parentCount := untaken ▸ flowing.parentCount
  childCount := unacked ▸ flowing.childCount

/-- The length byte tells the next word from the end. -/
theorem Flowing.readLength (flowing : Flowing startParent startChild file done left state)
    (fits : Fits file) (parentEq : state.parent = .readLength) {got pipe : List UInt8} {count : Nat}
    (pulled : pull state.pipe 1 count = some (got, pipe)) :
    Flowing startParent startChild file done left { state with
      pipe := pipe
      parent := if got.headD 0 = 0 then .closing else .readWord (got.headD 0) [] } := by
  obtain ⟨split, nonempty, atMost⟩ := append_of_pull pulled
  obtain ⟨length, rfl⟩ : ∃ length, got = [length] := by
    have positive := List.length_pos_iff.mpr nonempty
    exact List.length_eq_one_iff.mp (by omega)
  have reads := flowing.reads
  rw [parentEq, ← split] at reads
  cases left with
  | nil =>
      obtain ⟨rfl, rest⟩ := List.cons_eq_cons.mp reads
      refine flowing.advance ⟨rfl, rest⟩ ?_ ?_ <;> rw [parentEq] <;> rfl
  | cons word left =>
      have lengthIs : length = UInt8.ofNat word.length := (List.cons_eq_cons.mp reads).1
      have rest := (List.cons_eq_cons.mp reads).2
      subst lengthIs
      have member : word ∈ wordsOf file := by
        rw [flowing.words]
        simp
      have bound := fits word member
      have nonempty := ne_nil_of_mem_wordsBy member
      have lengthEq := toNat_ofNat_length bound
      have notEnd : [UInt8.ofNat word.length].headD 0 ≠ 0 := ofNat_length_ne_zero nonempty bound
      rw [if_neg notEnd]
      refine flowing.advance ?_ ?_ ?_
      · exact ⟨word, left, rfl, lengthEq.symm, List.length_pos_iff.mpr nonempty, rest⟩
      · rw [parentEq]
        rfl
      · rw [parentEq]
        rfl

/-- Reading goes on until the word is complete. -/
theorem Flowing.readWord (flowing : Flowing startParent startChild file done left state)
    {length : UInt8} {got : List UInt8} (parentEq : state.parent = .readWord length got)
    {more pipe : List UInt8} {count : Nat}
    (pulled : pull state.pipe (length.toNat - got.length) count = some (more, pipe)) :
    Flowing startParent startChild file done left { state with
      pipe := pipe
      parent := if (got ++ more).length < length.toNat then .readWord length (got ++ more)
        else .print length (got ++ more) } := by
  obtain ⟨split, nonempty, atMost⟩ := append_of_pull pulled
  have reads := flowing.reads
  rw [parentEq, ← split] at reads
  obtain ⟨word, rest, rfl, lengthEq, shorter, stream⟩ := reads
  rw [List.append_assoc, ← List.append_assoc got more] at stream
  split
  · rename_i incomplete
    refine flowing.advance ⟨word, rest, rfl, lengthEq, lengthEq ▸ incomplete, stream⟩ ?_ ?_ <;>
      rw [parentEq] <;> rfl
  · rename_i complete
    have sameLength : (got ++ more).length = word.length := by
      rw [List.length_append] at complete ⊢
      omega
    obtain ⟨rfl, after⟩ := List.append_inj stream sameLength
    refine flowing.advance ⟨rest, rfl, lengthEq, after⟩ ?_ ?_ <;> rw [parentEq] <;> rfl

/-- A post is taken. -/
theorem Flowing.wait (flowing : Flowing startParent startChild file done left state)
    (parentEq : state.parent = .wait) {semParent : Nat}
    (waited : state.semParent = semParent + 1) :
    Flowing startParent startChild file done left
      { state with semParent := semParent, parent := .readLength } := by
  have reads := flowing.reads
  have parentCount := flowing.parentCount
  have childCount := flowing.childCount
  rw [parentEq] at reads parentCount childCount
  refine ⟨flowing.words, flowing.printed, reads, flowing.fine, flowing.unposted, ?_, childCount⟩
  simp only [Parent.untaken] at parentCount ⊢
  omega

/-- The next word is printed. -/
theorem Flowing.print (flowing : Flowing startParent startChild file done left state)
    {length : UInt8} {word : List UInt8} (parentEq : state.parent = .print length word) :
    ∃ rest, Flowing startParent startChild file (done ++ [word]) rest
      { state.terminate length.toNat with
        printed := state.printed ++ [(length, cString word)]
        parent := .post } := by
  have reads := flowing.reads
  have parentCount := flowing.parentCount
  have childCount := flowing.childCount
  rw [parentEq] at reads parentCount childCount
  obtain ⟨rest, rfl, lengthEq, stream⟩ := reads
  have words : wordsOf file = (done ++ [word]) ++ rest := by
    rw [flowing.words, List.append_assoc, List.singleton_append]
  have printed : state.printed ++ [(length, cString word)] = (done ++ [word]).map line := by
    rw [flowing.printed, List.map_append, List.map_singleton, line, lengthEq,
      UInt8.ofNat_toNat]
  refine ⟨rest, words, printed, stream, flowing.fine, flowing.unposted, ?_, ?_⟩
  · simpa [State.terminate, Parent.untaken] using parentCount
  · simpa [State.terminate, Parent.unacked] using childCount

/-- The word is acknowledged. -/
theorem Flowing.post (flowing : Flowing startParent startChild file done left state)
    (parentEq : state.parent = .post) :
    Flowing startParent startChild file done left
      { state with semChild := state.semChild + 1, parent := .wait } := by
  have reads := flowing.reads
  have parentCount := flowing.parentCount
  have childCount := flowing.childCount
  rw [parentEq] at reads parentCount childCount
  refine ⟨flowing.words, flowing.printed, reads, flowing.fine, flowing.unposted, parentCount, ?_⟩
  simp only [Parent.unacked] at childCount ⊢
  omega

/-- A step of the parent. -/
theorem parentStep_flowing {count : Nat} {next : State}
    (stepped : parentStep state count = some next)
    (flowing : Flowing startParent startChild file done left state) (fits : Fits file) :
    ∃ done' left', Flowing startParent startChild file done' left' next := by
  have reads := flowing.reads
  cases parentStep_moves stepped with
  | opens parentEq =>
      rw [parentEq] at reads
      refine ⟨done, left, flowing.advance reads ?_ ?_⟩ <;> rw [parentEq] <;> rfl
  | waits parentEq waited => exact ⟨done, left, flowing.wait parentEq waited⟩
  | readsLength parentEq taken =>
      rcases read_eq_some taken with rfl | ⟨got, pipe, pulled, rfl⟩
      · exact ⟨done, left, flowing⟩
      · exact ⟨done, left, flowing.readLength fits parentEq pulled⟩
  | readsWord parentEq taken =>
      rcases read_eq_some taken with rfl | ⟨more, pipe, pulled, rfl⟩
      · exact ⟨done, left, flowing⟩
      · exact ⟨done, left, flowing.readWord parentEq pulled⟩
  | prints parentEq => exact ⟨_, flowing.print parentEq⟩
  | posts parentEq => exact ⟨done, left, flowing.post parentEq⟩
  | exits parentEq =>
      rw [parentEq] at reads
      refine ⟨done, left, flowing.advance reads ?_ ?_⟩ <;> rw [parentEq] <;> rfl

end ParentSteps

/-! ## All runs -/

/-- The frames that the parent has not read to their end. -/
def Parent.unread (left : List (List UInt8)) : Parent → List (List UInt8)
  | .print _ _ => left.tail ++ [[]]
  | .closing => []
  | .exited => []
  | _ => left ++ [[]]

/-- What the parent still has to read is the end of the frames it has not read. -/
theorem Parent.Reads.suffix {left : List (List UInt8)} {stream : List UInt8} {parent : Parent}
    (reads : parent.Reads left stream) : stream <:+ frames byteLength (parent.unread left) := by
  cases parent with
  | readWord length got =>
      obtain ⟨word, rest, rfl, _, _, split⟩ := reads
      refine ⟨UInt8.ofNat word.length :: got, ?_⟩
      rw [List.cons_append, split]
      rfl
  | print length word =>
      obtain ⟨rest, rfl, _, rfl⟩ := reads
      exact List.suffix_refl _
  | closing =>
      rw [reads.2]
      exact List.nil_suffix
  | exited =>
      rw [reads.2]
      exact List.nil_suffix
  | _ =>
      rw [show stream = _ from reads]
      exact List.suffix_refl _

namespace Flowing

variable {file : List UInt8} {done left : List (List UInt8)} {state : State}

theorem framesOf_eq (flowing : Flowing startParent startChild file done left state) :
    framesOf file = done ++ (left ++ [[]]) := by
  rw [framesOf, flowing.words, List.append_assoc]

theorem fits_unposted (flowing : Flowing startParent startChild file done left state)
    (fits : Fits file) : ∀ word ∈ state.child.unposted, word.length ≤ maxWordLength := by
  intro word member
  rcases List.mem_append.mp (flowing.unposted.subset member) with inFile | terminator
  · exact fits word inFile
  · rw [List.mem_singleton.mp terminator]
    exact Nat.zero_le _

/-- The parent leaves only after everything was written. -/
theorem hasReader (flowing : Flowing startParent startChild file done left state)
    (writes : state.child.unwritten ≠ []) : state.hasReader = true := by
  have reads := flowing.reads
  unfold State.hasReader
  split
  · rfl
  · rename_i exited _
    rw [exited] at reads
    exact absurd (List.append_eq_nil_iff.mp reads.2).2 writes
  · rfl

theorem childStep_flowing {capacity count : Nat} {next : State}
    (stepped : childStep capacity state count = some next)
    (flowing : Flowing startParent startChild file done left state) (fits : Fits file) :
    Flowing startParent startChild file done left next := by
  have keeps := childStep_keeps stepped flowing.fine (flowing.fits_unposted fits)
    flowing.hasReader
  have parent : next.parent = state.parent := keeps.parent
  have printed : next.printed = state.printed := keeps.printed
  have parentCount := flowing.parentCount
  have childCount := flowing.childCount
  have keptParent := keeps.parentCount
  have keptChild := keeps.childCount
  simp only at keptParent keptChild
  refine ⟨flowing.words, printed.trans flowing.printed, ?_, keeps.fine,
    keeps.unposted.trans flowing.unposted, ?_, ?_⟩
  · rw [parent, keeps.stream]
    exact flowing.reads
  · rw [parent]
    omega
  · rw [parent]
    omega

theorem initial {startParent startChild : Nat} {file : List UInt8} :
    Flowing startParent startChild file [] (wordsOf file)
      (initial startParent startChild file) where
  words := rfl
  printed := rfl
  reads := rfl
  fine := trivial
  unposted := List.suffix_refl _
  parentCount := by
    simp [Reliable.initial, Child.unposted, Parent.untaken, framesOf]
    omega
  childCount := by
    simp [Reliable.initial, Child.unwaited, Child.unposted, Parent.unacked, framesOf]
    omega

/-- A step of either process. -/
theorem step_flowing {capacity : Nat} {action : Action} {next : State}
    (stepped : step capacity state action = some next)
    (flowing : Flowing startParent startChild file done left state) (fits : Fits file) :
    ∃ done' left', Flowing startParent startChild file done' left' next := by
  cases action with
  | child count => exact ⟨done, left, childStep_flowing stepped flowing fits⟩
  | parent count => exact parentStep_flowing stepped flowing fits

end Flowing

theorem reachable_flowing {startParent startChild capacity : Nat} {file : List UInt8}
    {state : State} (fits : Fits file)
    (reachable : Reachable (step capacity) (initial startParent startChild file) state) :
    ∃ done left, Flowing startParent startChild file done left state := by
  apply reachable.invariant ⟨[], wordsOf file, Flowing.initial⟩
  rintro before action after ⟨done, left, flowing⟩ stepped
  exact Flowing.step_flowing stepped flowing fits

/-! ## Runs that stay inside the buffers -/

/-- A step of the child that stores a terminator outside the buffer sends a word
that fills it. -/
theorem childStep_stray {capacity count : Nat} {state next : State}
    (stepped : childStep capacity state count = some next) :
    next.stray = state.stray ∨ ∃ word caller, next.child = .writeLength word caller ∧
      next.stray = (state.stray || word.length ≥ maxWordLength) := by
  have written {data : List UInt8} {after : List UInt8 → Child}
      (stepped : write capacity state data count after = some next) :
      next.stray = state.stray := by
    unfold write at stepped
    split at stepped
    · obtain ⟨_, _, rfl⟩ := Option.map_eq_some_iff.mp stepped
      rfl
    · cases stepped
      rfl
  cases childStep_moves stepped with
  | @reads file word childEq =>
      cases readNext isDelimiter maxWordLength file word with
      | send sent rest => exact Or.inr ⟨sent, .loop rest, rfl, rfl⟩
      | sendLast sent => exact Or.inr ⟨sent, .lastWord, rfl, rfl⟩
      | finish => exact Or.inl rfl
      | read rest held => exact Or.inl rfl
      | refuse => exact Or.inl rfl
  | writesLength childEq transferred => exact Or.inl (written transferred)
  | writesWord childEq transferred => exact Or.inl (written transferred)
  | _ => exact Or.inl rfl

/-- A step of the parent that stores a terminator outside the buffer prints a word
that fills it. -/
theorem parentStep_stray {count : Nat} {state next : State}
    (stepped : parentStep state count = some next) :
    next.stray = state.stray ∨ ∃ length word, state.parent = .print length word ∧
      next.stray = (state.stray || length.toNat ≥ maxWordLength) := by
  have taken {wanted : Nat} {after : List UInt8 → Parent}
      (stepped : read state wanted count after = some next) : next.stray = state.stray := by
    rcases read_eq_some stepped with rfl | ⟨_, _, _, rfl⟩
    · rfl
    · rfl
  cases parentStep_moves stepped with
  | readsLength parentEq transferred => exact Or.inl (taken transferred)
  | readsWord parentEq transferred => exact Or.inl (taken transferred)
  | prints parentEq => exact Or.inr ⟨_, _, parentEq, rfl⟩
  | _ => exact Or.inl rfl

/-- Short words are terminated inside the buffers. -/
theorem Flowing.inside {startParent startChild capacity : Nat} {file : List UInt8}
    {done left : List (List UInt8)} {state next : State} {action : Action}
    (stepped : step capacity state action = some next)
    (flowing : Flowing startParent startChild file done left state) (short : Short file)
    (inside : state.stray = false) : next.stray = false := by
  cases action with
  | child count =>
      rcases childStep_stray stepped with same | ⟨word, caller, childEq, stray⟩
      · rw [same, inside]
      · have after := Flowing.childStep_flowing stepped flowing short.fits
        have member : word ∈ framesOf file := by
          apply after.unposted.subset
          rw [childEq]
          exact List.mem_cons_self
        have bound : word.length ≤ 254 := by
          rcases List.mem_append.mp member with inFile | terminator
          · exact short word inFile
          · rw [List.mem_singleton.mp terminator]
            exact Nat.zero_le _
        have within : ¬word.length ≥ maxWordLength := by
          rw [maxWordLength]
          omega
        simp [stray, inside, within]
  | parent count =>
      rcases parentStep_stray stepped with same | ⟨length, word, parentEq, stray⟩
      · rw [same, inside]
      · have reads := flowing.reads
        rw [parentEq] at reads
        obtain ⟨rest, rfl, lengthEq, _⟩ := reads
        have bound := short word (by rw [flowing.words]; simp)
        have within : ¬length.toNat ≥ maxWordLength := by
          rw [maxWordLength]
          omega
        simp [stray, inside, within]

theorem reachable_balanced {capacity : Nat} {file : List UInt8} {state : State}
    (short : Short file) (reachable : Reachable (step capacity) (initial 0 1 file) state) :
    ∃ done left, Balanced file done left state := by
  have flowing := reachable_flowing short.fits reachable
  have inside : state.stray = false := by
    suffices both : (∃ done left, Flowing 0 1 file done left state) ∧ state.stray = false from
      both.2
    apply reachable.invariant ⟨⟨[], wordsOf file, Flowing.initial⟩, rfl⟩
    rintro before action after ⟨⟨done, left, flowing⟩, inside⟩ stepped
    exact ⟨Flowing.step_flowing stepped flowing short.fits,
      Flowing.inside stepped flowing short inside⟩
  obtain ⟨done, left, flowing⟩ := flowing
  have childCount := flowing.childCount
  exact ⟨done, left, flowing.words, flowing.printed, flowing.reads, flowing.fine,
    flowing.unposted, flowing.parentCount, by omega, inside⟩

end CExamples.Pipe.Reliable
