import CExamples.Pipe.Simple.Frames
import CExamples.Word.Reader

/-!
# The end of the simple pipe

When a word of the file is too long the child leaves without the frame of length
zero.  At the end of the pipe the parent's `read` gets nothing and leaves `length`
as it was, so the parent goes on with the length and the word of the last frame
and prints them again.  Only when no frame was sent and the variable happens to be
zero does it leave its loop.
-/

namespace CExamples.Pipe.Simple

open CExamples.Transition
open CExamples.Word
open CExamples.Pipe.Reliable (Caller framesOf line)

/-- The file starts with a word that does not fit. -/
def FirstTooLong (file : List UInt8) : Prop :=
  ∃ first rest, wordsOf file = first :: rest ∧ maxWordLength < first.length

/-- The parent prints what the child wrote and ends after it. -/
structure Honest (capacity : Nat) (state : State) : Prop where
  /-- The printed lines are those of the first frames that the child wrote. -/
  inOrder : state.printed <+: state.sent.map line
  /-- After the child has ended only frames that are still in the pipe are printed. -/
  atMost : state.child.Ended → ∀ later, Reachable (step capacity) state later →
    later.printed <+: state.printed ++ (complete byteLength state.unprinted).map line
  /-- After the child has ended the parent leaves its loop. -/
  leaves : state.child.Ended → Inevitably (step capacity) State.HasLeft state

/-- A step of the parent leaves the child alone. -/
theorem parentStep_child {state next : State} (stepped : parentStep state = some next) :
    next.child = state.child := by
  cases parentEq : state.parent with
  | readLength =>
      simp only [parentStep, parentEq] at stepped
      obtain ⟨_, _, rfl⟩ := Option.map_eq_some_iff.mp stepped
      rfl
  | readWord =>
      simp only [parentStep, parentEq] at stepped
      obtain ⟨_, _, rfl⟩ := Option.map_eq_some_iff.mp stepped
      rfl
  | exited =>
      simp only [parentStep, parentEq] at stepped
      cases stepped
  | _ =>
      simp only [parentStep, parentEq] at stepped
      cases stepped
      rfl

/-- A child that has ended does not move. -/
theorem childStep_ended {capacity : Nat} {state : State} (ended : state.child.Ended) :
    childStep capacity state = none := by
  rcases ended with exited | failed
  · rw [childStep, exited]
  · rw [childStep, failed]

/-- Once the child has ended the parent is never blocked. -/
theorem exists_parentStep {state : State} (ended : state.child.Ended)
    (stays : ¬state.HasLeft) : ∃ next, parentStep state = some next := by
  have noWriter (started : state.parent ≠ .start) : state.hasWriter = false := by
    rcases ended with exited | failed <;> simp [State.hasWriter, *]
  cases parentEq : state.parent with
  | start => exact ⟨_, by rw [parentStep, parentEq]⟩
  | readLength =>
      have noWriter := noWriter (by simp [parentEq])
      exact ⟨_, by rw [parentStep, parentEq]; simp only [read, noWriter, pullUpTo_false]; rfl⟩
  | readWord =>
      have noWriter := noWriter (by simp [parentEq])
      exact ⟨_, by rw [parentStep, parentEq]; simp only [read, noWriter, pullUpTo_false]; rfl⟩
  | print => exact ⟨_, by rw [parentStep, parentEq]⟩
  | closing => exact absurd (Or.inl parentEq) stays
  | exited => exact absurd (Or.inr parentEq) stays

/-! ## Files whose words fit -/

namespace Faithful

variable {file : List UInt8} {done left : List (List UInt8)} {state : State}

/-- The printed words are the first words of the file. -/
theorem done_isPrefix (faithful : Faithful file done left state) : done <+: wordsOf file := by
  have whole := faithful.whole
  rw [framesOf, List.append_assoc] at whole
  rcases List.eq_nil_or_concat' (left ++ state.child.unsent) with empty | ⟨before, last, eq⟩
  · rw [empty, List.append_nil] at whole
    exact absurd rfl (faithful.nonempty [] (by rw [whole]; simp))
  · rw [eq, ← List.append_assoc] at whole
    exact ⟨before, (List.append_inj' whole rfl).1⟩

/-- What is not printed are whole frames, unless the child is writing one. -/
theorem unprinted_eq (faithful : Faithful file done left state) (stays : ¬state.HasLeft)
    (begun : state.child.begun = []) : state.unprinted = frames byteLength left := by
  have holds := faithful.holds
  rw [begun] at holds
  cases parentEq : state.parent with
  | readWord =>
      simp only [State.Holds, parentEq] at holds
      rw [State.unprinted, parentEq]
      simpa using holds.2
  | print =>
      simp only [State.Holds, parentEq] at holds
      obtain ⟨word, rest, more, rfl, nonempty, length, buffer, pipe⟩ := holds
      rw [State.unprinted, parentEq]
      simp only [buffer, ← length, List.take_left, pipe, List.append_nil, frames_cons, frame,
        byteLength, List.cons_append]
      rw [length, UInt8.ofNat_toNat]
  | closing => exact absurd (Or.inl parentEq) stays
  | exited => exact absurd (Or.inr parentEq) stays
  | start =>
      simp only [State.Holds, parentEq] at holds
      simpa [State.unprinted, parentEq] using holds
  | readLength =>
      simp only [State.Holds, parentEq] at holds
      simpa [State.unprinted, parentEq] using holds

theorem exited_of_ended (faithful : Faithful file done left state) (ended : state.child.Ended) :
    state.child = .exited := by
  have fine := faithful.fine
  rcases ended with exited | failed
  · exact exited
  · rw [failed] at fine
    exact fine.elim

/-- After the child has ended, the words of the file are printed or in the pipe. -/
theorem words_isPrefix (faithful : Faithful file done left state) (fits : Fits file)
    (ended : state.child.Ended) :
    wordsOf file <+: done ++ complete byteLength state.unprinted := by
  have exited := faithful.exited_of_ended ended
  have whole : done ++ left = wordsOf file ++ [[]] := by
    have whole := faithful.whole
    rwa [exited, Child.unsent, List.append_nil, framesOf] at whole
  by_cases stays : state.HasLeft
  · have last : left = [[]] := by
      have holds := faithful.holds
      rcases stays with closing | exited
      · simp only [State.Holds, closing] at holds
        exact holds.1
      · simp only [State.Holds, exited] at holds
        exact holds.1
    rw [last] at whole
    rw [← (List.append_inj' whole rfl).1]
    exact List.prefix_append done _
  · rw [faithful.unprinted_eq stays (by rw [exited]; rfl), complete_frames byteLength, whole]
    · exact List.prefix_append _ _
    · intro word member
      exact faithful.short fits word (by simp [member])

end Faithful

/-- How far the parent is from leaving its loop. -/
def State.distance (state : State) : Nat :=
  2 * state.pipe.length +
    match state.parent with
    | .start => 1
    | .readWord => 1
    | .print => 1
    | _ => 0

/-- After the child has ended each step of the parent takes it closer. -/
theorem Faithful.distance_lt {file : List UInt8} {done left : List (List UInt8)}
    {state next : State} (faithful : Faithful file done left state) (fits : Fits file)
    (ended : state.child.Ended) (stays : ¬state.HasLeft)
    (stepped : Simple.parentStep state = some next) : next.distance < state.distance := by
  have holds := faithful.holds
  have begun : state.child.begun = [] := by
    rw [faithful.exited_of_ended ended]
    rfl
  cases parentEq : state.parent with
  | start =>
      simp only [Simple.parentStep, parentEq] at stepped
      cases stepped
      simp [State.distance, parentEq]
  | readLength =>
      simp only [Simple.parentStep, parentEq, read] at stepped
      obtain ⟨⟨got, pipe⟩, pulled, rfl⟩ := Option.map_eq_some_iff.mp stepped
      obtain ⟨blocks, rfl, rfl⟩ := pullUpTo_eq_some.mp pulled
      simp only [State.Holds, parentEq] at holds
      have positive := List.length_pos_iff.mpr (faithful.pipe_ne_nil holds blocks)
      simp only [State.distance, parentEq, List.length_drop]
      split <;> omega
  | readWord =>
      simp only [Simple.parentStep, parentEq, read] at stepped
      obtain ⟨⟨got, pipe⟩, pulled, rfl⟩ := Option.map_eq_some_iff.mp stepped
      obtain ⟨_, rfl, rfl⟩ := pullUpTo_eq_some.mp pulled
      simp only [State.Holds, parentEq, begun, List.append_nil] at holds
      obtain ⟨nonzero, split⟩ := holds
      have positive : 0 < state.length.toNat :=
        Nat.pos_of_ne_zero fun zero => nonzero (UInt8.toNat_inj.mp zero)
      rcases left with _ | ⟨word, rest⟩
      · cases split
      · have parts := faithful.frames_cons_eq fits (by rw [begun, List.append_nil]; exact split)
        have lengths := congrArg List.length parts.2
        rw [List.length_append] at lengths
        simp only [State.distance, parentEq, List.length_drop]
        omega
  | print =>
      simp only [Simple.parentStep, parentEq] at stepped
      cases stepped
      simp [State.distance, parentEq]
  | closing => exact absurd (Or.inl parentEq) stays
  | exited => exact absurd (Or.inr parentEq) stays

/-- On its way out the parent empties the pipe. -/
theorem fits_descends {capacity : Nat} {file : List UInt8} (fits : Fits file) :
    Descends (step capacity)
      (fun state => (∃ done left, Faithful file done left state) ∧ state.child.Ended)
      State.HasLeft State.distance where
  enabled := by
    rintro state ⟨_, ended⟩ stays
    obtain ⟨next, stepped⟩ := exists_parentStep ended stays
    exact ⟨.parent, next, stepped⟩
  keeps := by
    rintro state action next ⟨⟨done, left, faithful⟩, ended⟩ _ stepped
    cases action with
    | child =>
        rw [step, childStep_ended ended] at stepped
        cases stepped
    | parent =>
        refine ⟨faithful.parentStep fits stepped, ?_⟩
        rw [Child.Ended, parentStep_child stepped]
        exact ended
  decreases := by
    rintro state action next ⟨⟨done, left, faithful⟩, ended⟩ stays stepped
    cases action with
    | child =>
        rw [step, childStep_ended ended] at stepped
        cases stepped
    | parent => exact faithful.distance_lt fits ended stays stepped

/-- On a file whose words fit the parent prints what was written and ends. -/
theorem fits_honest {capacity : Nat} {file : List UInt8} {length : UInt8}
    {word : List UInt8} {state : State} (fits : Fits file)
    (reachable : Reachable (step capacity) (initial file length word) state) :
    Honest capacity state := by
  obtain ⟨done, left, faithful⟩ := reachable_faithful fits reachable
  constructor
  · rw [faithful.printed, faithful.sent, List.map_append]
    exact List.prefix_append _ _
  · intro ended later onwards
    obtain ⟨done', left', after⟩ := reachable_faithful fits (reachable.trans onwards)
    rw [after.printed, faithful.printed, ← List.map_append]
    exact (after.done_isPrefix.trans (faithful.words_isPrefix fits ended)).map line
  · intro ended
    exact (fits_descends fits).inevitably ⟨⟨done, left, faithful⟩, ended⟩

/-! ## Files that start with a word that does not fit -/

/-- What the child holds before it meets the end of a first word that is too long. -/
def Child.Unspoken : Child → Prop
  | .start file => FirstTooLong file
  | .reading file word =>
      FirstTooLong (word ++ file) ∧ word.length ≤ maxWordLength ∧
        ∀ letter ∈ word, isDelimiter letter = false
  | .failed => True
  | _ => False

/-- The invariant of all runs in which nothing is sent and `length` is zero. -/
structure Silent (state : State) : Prop where
  child : state.child.Unspoken
  parent : state.parent = .start ∨ state.parent = .readLength ∨ state.HasLeft
  pipe : state.pipe = []
  length : state.length = 0
  printed : state.printed = []

/-- A delimiter in front does not change the first word. -/
theorem firstTooLong_delimiter {file : List UInt8} {ch : UInt8}
    (delimits : isDelimiter ch = true) : FirstTooLong (ch :: file) ↔ FirstTooLong file := by
  have same : wordsOf (ch :: file) = wordsOf file := by
    rw [wordsOf, ← List.nil_append (ch :: file), wordsBy_append_cons [] file delimits, wordsBy_nil]
    rfl
  rw [FirstTooLong, same, FirstTooLong]

/-- A first word that fits is not too long. -/
theorem not_firstTooLong {file word : List UInt8} {ch : UInt8} (nonempty : word ≠ [])
    (letters : ∀ letter ∈ word, isDelimiter letter = false) (fits : word.length ≤ maxWordLength)
    (delimits : isDelimiter ch = true) : ¬FirstTooLong (word ++ ch :: file) := by
  rintro ⟨first, rest, split, longer⟩
  rw [wordsOf, wordsBy_append_cons word file delimits, wordsBy_eq_singleton nonempty letters,
    List.singleton_append] at split
  obtain ⟨rfl, _⟩ := List.cons_eq_cons.mp split
  omega

/-- More letters than fit begin a word that is too long. -/
theorem firstTooLong_of_letters {file word : List UInt8}
    (letters : ∀ letter ∈ word, isDelimiter letter = false) (longer : maxWordLength < word.length) :
    FirstTooLong (word ++ file) := by
  have nonempty : word ≠ [] := by
    rintro rfl
    cases longer
  obtain ⟨more, rest, split⟩ := exists_wordsBy_append nonempty letters file
  refine ⟨word ++ more, rest, split, ?_⟩
  rw [List.length_append]
  omega

namespace Silent

variable {state : State}

/-- A step of the child sends nothing. -/
theorem childStep {capacity : Nat} {next : State} (silent : Silent state)
    (stepped : Simple.childStep capacity state = some next) : Silent next := by
  have move {child : Child} (unspoken : child.Unspoken) :
      Silent { state with child := child } :=
    ⟨unspoken, silent.parent, silent.pipe, silent.length, silent.printed⟩
  have unspoken := silent.child
  cases childEq : state.child with
  | start file =>
      rw [childEq] at unspoken
      simp only [Simple.childStep, childEq] at stepped
      cases stepped
      exact move ⟨unspoken, Nat.zero_le _, List.forall_mem_nil _⟩
  | reading file word =>
      rw [childEq] at unspoken
      obtain ⟨tooLong, fits, letters⟩ := unspoken
      rw [childStep_reading childEq] at stepped
      cases stepped
      have reads := reads_readNext isDelimiter maxWordLength file word
      generalize readNext isDelimiter maxWordLength file word = outcome at reads ⊢
      cases reads with
      | send delimits nonempty =>
          exact absurd tooLong (not_firstTooLong nonempty letters fits delimits)
      | skip delimits =>
          exact move ⟨(firstTooLong_delimiter delimits).mp tooLong, fits, letters⟩
      | refuse ordinary full => exact move trivial
      | collect ordinary room =>
          refine move ⟨?_, ?_, letters_concat letters ordinary⟩
          · rwa [List.append_assoc, List.singleton_append]
          · rw [List.length_append, List.length_singleton]
            exact room
      | sendLast nonempty =>
          obtain ⟨first, rest, split, longer⟩ := tooLong
          rw [List.append_nil, wordsOf, wordsBy_eq_singleton nonempty letters] at split
          obtain ⟨rfl, _⟩ := List.cons_eq_cons.mp split
          omega
      | finish =>
          obtain ⟨first, rest, split, _⟩ := tooLong
          rw [List.append_nil, wordsOf, wordsBy_nil] at split
          cases split
  | failed =>
      simp only [Simple.childStep, childEq] at stepped
      cases stepped
  | _ =>
      rw [childEq] at unspoken
      exact unspoken.elim

/-- The parent meets the end of the pipe with a length of zero. -/
theorem parentStep {next : State} (silent : Silent state)
    (stepped : Simple.parentStep state = some next) :
    Silent next ∧ next.child = state.child ∧
      (state.parent = .start ∧ next.parent = .readLength ∨ next.HasLeft) := by
  have sameChild := parentStep_child stepped
  have unspoken : next.child.Unspoken := sameChild ▸ silent.child
  rcases silent.parent with start | readLength | closing | exited
  · simp only [Simple.parentStep, start] at stepped
    cases stepped
    exact ⟨⟨unspoken, Or.inr (Or.inl rfl), silent.pipe, silent.length, silent.printed⟩, rfl,
      Or.inl ⟨start, rfl⟩⟩
  · simp only [Simple.parentStep, readLength, read, silent.pipe, silent.length] at stepped
    obtain ⟨⟨got, pipe⟩, pulled, rfl⟩ := Option.map_eq_some_iff.mp stepped
    obtain ⟨_, rfl, rfl⟩ := pullUpTo_eq_some.mp pulled
    exact ⟨⟨unspoken, Or.inr (Or.inr (Or.inl rfl)), rfl, rfl, silent.printed⟩, rfl,
      Or.inr (Or.inl rfl)⟩
  · simp only [Simple.parentStep, closing] at stepped
    cases stepped
    exact ⟨⟨unspoken, Or.inr (Or.inr (Or.inr rfl)), silent.pipe, silent.length, silent.printed⟩,
      rfl, Or.inr (Or.inr rfl)⟩
  · simp only [Simple.parentStep, exited] at stepped
    cases stepped

theorem reachable {capacity : Nat} {source target : State} (silent : Silent source)
    (reachable : Reachable (step capacity) source target) : Silent target := by
  apply reachable.invariant silent
  intro before action after silent stepped
  cases action with
  | child => exact silent.childStep stepped
  | parent => exact (silent.parentStep stepped).1

/-- After the child has failed the parent leaves its loop with its first read. -/
theorem leaves {capacity : Nat} (silent : Silent state) (ended : state.child.Ended) :
    Inevitably (step capacity) State.HasLeft state := by
  have onward {state : State} (silent : Silent state) (ended : state.child.Ended)
      (stays : ¬state.HasLeft)
      (rest : ∀ next, Silent next → next.child.Ended →
        state.parent = .start ∧ next.parent = .readLength ∨ next.HasLeft →
        Inevitably (step capacity) State.HasLeft next) :
      Inevitably (step capacity) State.HasLeft state := by
    apply Inevitably.later
    · obtain ⟨next, stepped⟩ := exists_parentStep ended stays
      exact ⟨.parent, next, stepped⟩
    · intro action next stepped
      cases action with
      | child =>
          rw [step, childStep_ended ended] at stepped
          cases stepped
      | parent =>
          obtain ⟨after, sameChild, moved⟩ := silent.parentStep stepped
          exact rest next after (by rwa [Child.Ended, sameChild]) moved
  have fromReading {state : State} (silent : Silent state) (ended : state.child.Ended)
      (reading : state.parent = .readLength) :
      Inevitably (step capacity) State.HasLeft state := by
    apply onward silent ended (by simp [State.HasLeft, reading])
    rintro next _ _ (⟨start, _⟩ | left)
    · rw [reading] at start
      cases start
    · exact Inevitably.here left
  rcases silent.parent with start | reading | left
  · apply onward silent ended (by simp [State.HasLeft, start])
    rintro next after ended (⟨_, reading⟩ | left)
    · exact fromReading after ended reading
    · exact Inevitably.here left
  · exact fromReading silent ended reading
  · exact Inevitably.here left

/-- A child that sends nothing leaves the parent nothing to print. -/
theorem honest {capacity : Nat} (silent : Silent state) : Honest capacity state := by
  constructor
  · rw [silent.printed]
    exact List.nil_prefix
  · intro _ later onwards
    rw [(silent.reachable onwards).printed]
    exact List.nil_prefix
  · exact silent.leaves

theorem initial {file word : List UInt8} (tooLong : FirstTooLong file) :
    Silent (initial file 0 word) :=
  ⟨tooLong, Or.inl rfl, rfl, rfl, rfl⟩

end Silent

/-! ## Files with a word that does not fit -/

/-- The parent has printed all frames that were sent, and at the end of the pipe it
will take `length` for the length of another one. -/
structure Level (state : State) : Prop where
  parent : state.parent = .readLength
  pipe : state.pipe = []
  printed : state.printed.length = state.sent.length

/-- The child reads on, and the next end of the pipe finds a length. -/
structure Misled (file word : List UInt8) (state : State) : Prop extends Level state where
  child : state.child = .reading file word
  length : FirstTooLong (word ++ file) → state.length ≠ 0

/-- The child has failed, and the parent does not notice. -/
structure Deserted (state : State) : Prop extends Level state where
  child : state.child = .failed
  length : state.length ≠ 0

/-- The child sends a word and the parent prints it. -/
theorem Misled.send {capacity : Nat} {file word : List UInt8} {ch : UInt8} {state : State}
    (misled : Misled (ch :: file) word state) (large : 512 ≤ capacity)
    (delimits : isDelimiter ch = true) (nonempty : word ≠ []) (fits : word.length ≤ maxWordLength) :
    ∃ later, Reachable (step capacity) state later ∧ Misled file [] later := by
  obtain ⟨child, parent, pipe, length, buffer, sent, printed⟩ := state
  obtain ⟨⟨rfl, rfl, counts⟩, rfl, _⟩ := misled
  have positive : 0 < word.length := List.length_pos_iff.mpr nonempty
  have lengthEq := toNat_ofNat_length fits
  have nonzero := ofNat_length_ne_zero nonempty fits
  have room : 1 + word.length ≤ capacity := by
    rw [maxWordLength] at fits
    omega
  have someRoom : 0 < capacity := by omega
  have wholeWord : word.take (UInt8.ofNat word.length).toNat = word := by
    rw [lengthEq, List.take_length]
  have nothingLeft : word.drop (UInt8.ofNat word.length).toNat = [] := by
    rw [lengthEq, List.drop_length]
  have run : exec (step capacity)
      ⟨.reading (ch :: file) word, .readLength, [], length, buffer, sent, printed⟩
      [.child, .child, .child, .parent, .parent, .parent] =
        some ⟨.reading file [], .readLength, [], UInt8.ofNat word.length,
          (word ++ buffer.drop word.length).set word.length 0, sent ++ [word],
          printed ++ [(UInt8.ofNat word.length,
            cString ((word ++ buffer.drop word.length).set word.length 0))]⟩ := by
    simp [exec, step, childStep, parentStep, write, read, State.hasReader, pushWhole, pullUpTo,
      afterSend, Nat.succ_le_iff, *]
  refine ⟨_, reachable_of_exec run, ⟨rfl, rfl, ?_⟩, rfl, fun _ => nonzero⟩
  simpa using counts

theorem reachable_of_childStep {capacity : Nat} {state next : State}
    (stepped : childStep capacity state = some next) : Reachable (step capacity) state next := by
  have moved : step capacity state .child = some next := stepped
  exact Reachable.single moved

/-- The child reads the file whatever its words are. -/
theorem reader {capacity : Nat} (large : 512 ≤ capacity) :
    Reader (step capacity) isDelimiter maxWordLength Misled Deserted where
  skip := by
    rintro ch file state delimits misled
    refine ⟨{ state with child := .reading file [] }, reachable_of_childStep ?_, ?_⟩
    · simp [childStep, misled.child, delimits]
    · exact ⟨⟨misled.parent, misled.pipe, misled.printed⟩, rfl, fun tooLong =>
        misled.length ((firstTooLong_delimiter delimits).mpr tooLong)⟩
  send := by
    rintro ch file word state delimits nonempty _ fits misled
    exact misled.send large delimits nonempty fits
  collect := by
    rintro ch file word state ordinary room misled
    refine ⟨{ state with child := .reading file (word ++ [ch]) }, reachable_of_childStep ?_, ?_⟩
    · simp [childStep, misled.child, ordinary, room]
    · refine ⟨⟨misled.parent, misled.pipe, misled.printed⟩, rfl, fun tooLong => misled.length ?_⟩
      rwa [List.append_assoc, List.singleton_append] at tooLong
  refuse := by
    rintro ch file word state ordinary full letters misled
    refine ⟨{ state with child := .failed }, reachable_of_childStep ?_, ?_⟩
    · simp [childStep, misled.child, ordinary, full]
    · refine ⟨⟨misled.parent, misled.pipe, misled.printed⟩, rfl, misled.length ?_⟩
      rw [← List.singleton_append, ← List.append_assoc]
      apply firstTooLong_of_letters
      · exact letters_concat letters ordinary
      · rw [List.length_append, List.length_singleton, full]
        omega

/-- At the end of the pipe the parent prints one line more than was sent. -/
theorem Deserted.invents {capacity : Nat} {state : State} (deserted : Deserted state) :
    ∃ later, Reachable (step capacity) state later ∧ ¬later.printed <+: later.sent.map line := by
  obtain ⟨child, parent, pipe, length, word, sent, printed⟩ := state
  obtain ⟨⟨rfl, rfl, counts⟩, rfl, nonzero⟩ := deserted
  have run : exec (step capacity) ⟨.failed, .readLength, [], length, word, sent, printed⟩
      [.parent, .parent, .parent] =
        some ⟨.failed, .readLength, [], length, word.set length.toNat 0, sent,
          printed ++ [(length, cString (word.set length.toNat 0))]⟩ := by
    simp only at nonzero
    simp [exec, step, parentStep, read, State.hasWriter, nonzero]
  refine ⟨_, reachable_of_exec run, fun printedFrames => ?_⟩
  have atMost := printedFrames.length_le
  simp only [List.length_append, List.length_singleton, List.length_map] at atMost
  simp only at counts
  omega

/-- A word that does not fit makes the parent print a frame that was not sent. -/
theorem invents_of_tooLong {capacity : Nat} {file word : List UInt8} {length : UInt8}
    (large : 512 ≤ capacity) (tooLong : ¬Fits file) (misled : FirstTooLong file → length ≠ 0) :
    ∃ state, Reachable (step capacity) (initial file length word) state ∧
      ¬state.printed <+: state.sent.map line := by
  have run : exec (step capacity) (initial file length word) [.child, .parent] =
      some ⟨.reading file [], .readLength, [], length, word, [], []⟩ := rfl
  have starts : Misled file [] ⟨.reading file [], .readLength, [], length, word, [], []⟩ :=
    ⟨⟨rfl, rfl, rfl⟩, rfl, misled⟩
  have long : ∃ long ∈ wordsBy isDelimiter ([] ++ file), maxWordLength < long.length := by
    rw [Fits] at tooLong
    push Not at tooLong
    exact tooLong
  obtain ⟨ended, reads, deserted⟩ := (reader large).overflows (by simp) (Nat.zero_le _) long starts
  obtain ⟨later, onwards, invented⟩ := deserted.invents
  exact ⟨later, ((reachable_of_exec run).trans reads).trans onwards, invented⟩

/-- A word of one letter and one of 256. -/
def shortThenLong : List UInt8 :=
  [97] ++ 32 :: List.replicate 256 98

theorem wordsOf_shortThenLong : wordsOf shortThenLong = [[97], List.replicate 256 98] := by
  have letter : ∀ ch ∈ ([97] : List UInt8), isDelimiter ch = false := by
    intro ch member
    rw [List.mem_singleton.mp member]
    rfl
  rw [wordsOf, shortThenLong, wordsBy_append_cons _ _ rfl,
    wordsBy_eq_singleton (List.cons_ne_nil _ _) letter, wordsBy_replicate rfl (by decide)]
  rfl

end CExamples.Pipe.Simple
