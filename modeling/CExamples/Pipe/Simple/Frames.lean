import CExamples.Pipe.Simple.Core
import CExamples.Transition.Inevitable

/-!
# Frames through the simple pipe

On a file whose words fit into the buffers the child ends with the frame of
length zero.  The frames that were written split into those that the parent has
printed and those it has not, and the bytes of the latter are what it has read
of its current frame followed by the contents of the pipe.  The parent therefore
never meets the end of the pipe, and once the child has ended it leaves its loop.
-/

namespace CExamples.Pipe.Simple

open CExamples.Transition
open CExamples.Word
open CExamples.Pipe.Reliable (Caller framesOf framesOf_eq_of_reads line)

/-- The words of the file fit into the buffers. -/
def Fits (file : List UInt8) : Prop :=
  ∀ word ∈ wordsOf file, word.length ≤ maxWordLength

namespace Child

/-- The frames that the child has not written to their end. -/
def unsent : Child → List (List UInt8)
  | .start file => framesOf file
  | .reading file word => framesOf (word ++ file)
  | .writeLength word caller => word :: caller.later
  | .writeWord word caller => word :: caller.later
  | .closing => []
  | .exited => []
  | .failed => []

/-- What the child has written of a frame that is not complete. -/
def begun : Child → List UInt8
  | .writeWord word _ => [UInt8.ofNat word.length]
  | _ => []

/-- What the child's own variables satisfy. -/
def Fine : Child → Prop
  | .reading _ word => ∀ letter ∈ word, isDelimiter letter = false
  | .writeWord word _ => word ≠ []
  | .failed => False
  | _ => True

/-- The child has ended, one way or the other. -/
def Ended (child : Child) : Prop :=
  child = .exited ∨ child = .failed

end Child

namespace State

/-- The parent has left its loop. -/
def HasLeft (state : State) : Prop :=
  state.parent = .closing ∨ state.parent = .exited

/-- What the parent has read of a frame that it has not printed, and the contents
of the pipe. -/
def unprinted (state : State) : List UInt8 :=
  match state.parent with
  | .readWord => state.length :: state.pipe
  | .print => state.length :: (state.word.take state.length.toNat ++ state.pipe)
  | _ => state.pipe

end State

/-- How the parent's variables and the pipe hold the frames `left`, of which it
has printed none, and the bytes `begun` of the next one. -/
def State.Holds (state : State) (left : List (List UInt8)) (begun : List UInt8) : Prop :=
  match state.parent with
  | .readWord =>
      state.length ≠ 0 ∧ state.length :: state.pipe = frames byteLength left ++ begun
  | .print =>
      ∃ word rest more, left = word :: rest ∧ word ≠ [] ∧ word.length = state.length.toNat ∧
        state.word = word ++ more ∧ state.pipe = frames byteLength rest ++ begun
  | .closing => left = [[]] ∧ state.pipe = [] ∧ begun = []
  | .exited => left = [[]] ∧ state.pipe = [] ∧ begun = []
  | _ => state.pipe = frames byteLength left ++ begun

/-- The invariant of all runs on a file whose words fit, after the frames `done`
were printed and before those of `left`. -/
structure Faithful (file : List UInt8) (done left : List (List UInt8)) (state : State) :
    Prop where
  whole : done ++ left ++ state.child.unsent = framesOf file
  sent : state.sent = done ++ left
  printed : state.printed = done.map line
  nonempty : ∀ word ∈ done, word ≠ []
  holds : state.Holds left state.child.begun
  fine : state.child.Fine

/-- Bytes at the end of the pipe do not change what the parent has read. -/
theorem State.Holds.append {state : State} {left left' : List (List UInt8)}
    {begun begun' more : List UInt8}
    (holds : state.Holds left begun) (stays : ¬state.HasLeft)
    (grows : frames byteLength left' ++ begun' = frames byteLength left ++ begun ++ more)
    (kept : left <+: left') :
    { state with pipe := state.pipe ++ more }.Holds left' begun' := by
  cases parentEq : state.parent with
  | readWord =>
      simp only [State.Holds, parentEq] at holds ⊢
      exact ⟨holds.1, by rw [grows, ← holds.2, List.cons_append]⟩
  | print =>
      simp only [State.Holds, parentEq] at holds ⊢
      obtain ⟨word, rest, tail, rfl, nonempty, length, buffer, pipe⟩ := holds
      obtain ⟨added, rfl⟩ := kept
      refine ⟨word, rest ++ added, tail, rfl, nonempty, length, buffer, ?_⟩
      rw [List.cons_append, frames_cons, frames_cons, List.append_assoc, List.append_assoc,
        List.append_assoc] at grows
      rw [pipe, List.append_assoc]
      exact (List.append_cancel_left grows).symm
  | closing => exact absurd (Or.inl parentEq) stays
  | exited => exact absurd (Or.inr parentEq) stays
  | start =>
      simp only [State.Holds, parentEq] at holds ⊢
      rw [grows, holds]
  | readLength =>
      simp only [State.Holds, parentEq] at holds ⊢
      rw [grows, holds]

/-- The child after it has dealt with the next letter. -/
def Child.resume : Outcome UInt8 → Child
  | .send word file => .writeLength word (.loop file)
  | .sendLast word => .writeLength word .lastWord
  | .finish => .writeLength [] .terminator
  | .read file word => .reading file word
  | .refuse => .failed

/-- A step at `fgetc`. -/
theorem childStep_reading {capacity : Nat} {state : State} {file word : List UInt8}
    (childEq : state.child = .reading file word) :
    childStep capacity state = some { state with
      child := .resume (readNext isDelimiter maxWordLength file word) } := by
  rw [childStep, childEq]
  cases file with
  | nil =>
      simp only [readNext]
      split <;> rfl
  | cons ch file =>
      simp only [readNext]
      split
      · split <;> rfl
      · split <;> rfl

namespace Faithful

variable {file : List UInt8} {done left : List (List UInt8)} {state : State}

/-- Every frame is short enough for its length byte. -/
theorem short (faithful : Faithful file done left state) (fits : Fits file) :
    ∀ word ∈ done ++ left ++ state.child.unsent, word.length ≤ maxWordLength := by
  intro word member
  rw [faithful.whole, framesOf] at member
  rcases List.mem_append.mp member with inFile | terminator
  · exact fits word inFile
  · rw [List.mem_singleton.mp terminator]
    exact Nat.zero_le _

/-- A frame without letters is the last one. -/
theorem last_of_empty {rest : List (List UInt8)}
    (faithful : Faithful file done ([] :: rest) state) :
    rest = [] ∧ state.child.unsent = [] := by
  have split : done ++ [] :: (rest ++ state.child.unsent) = wordsOf file ++ [[]] := by
    have whole := faithful.whole
    rwa [framesOf, List.append_assoc, List.cons_append] at whole
  rcases List.eq_nil_or_concat' (rest ++ state.child.unsent) with empty | ⟨before, last, eq⟩
  · exact List.append_eq_nil_iff.mp empty
  · rw [eq, ← List.cons_append, ← List.append_assoc] at split
    have words := (List.append_inj' split rfl).1
    have member : [] ∈ wordsOf file := by
      rw [← words]
      simp
    exact absurd rfl (ne_nil_of_mem_wordsBy member)

/-! ## Steps of the child -/

/-- A step of the child between two frames. -/
theorem hold (faithful : Faithful file done left state) {child : Child}
    (unsent : child.unsent = state.child.unsent) (begun : child.begun = state.child.begun)
    (fine : child.Fine) : Faithful file done left { state with child := child } where
  whole := by
    rw [unsent]
    exact faithful.whole
  sent := faithful.sent
  printed := faithful.printed
  nonempty := faithful.nonempty
  holds := by
    rw [begun]
    exact faithful.holds
  fine := fine

/-- While something is left to write the parent is in its loop. -/
theorem stays (faithful : Faithful file done left state) (writes : state.child.unsent ≠ []) :
    ¬state.HasLeft := by
  have empty (parentLeft : left = [[]]) : False := by
    subst parentLeft
    exact writes faithful.last_of_empty.2
  have holds := faithful.holds
  rintro (closing | exited)
  · rw [State.Holds, closing] at holds
    exact empty holds.1
  · rw [State.Holds, exited] at holds
    exact empty holds.1

theorem hasReader (faithful : Faithful file done left state)
    (writes : state.child.unsent ≠ []) : state.hasReader = true := by
  have stays := faithful.stays writes
  unfold State.hasReader
  split
  · rfl
  · rename_i exited _
    exact absurd (Or.inr exited) stays
  · rfl

/-- A write of the child. -/
theorem write {capacity : Nat} {next : State} {data : List UInt8}
    (faithful : Faithful file done left state) (child : Child) (more : List (List UInt8))
    (stepped : Simple.write capacity state data (fun pipe =>
      { state with pipe := pipe, child := child, sent := state.sent ++ more }) = some next)
    (writes : state.child.unsent ≠ [])
    (unsent : more ++ child.unsent = state.child.unsent)
    (grows : frames byteLength more ++ child.begun = state.child.begun ++ data)
    (fine : child.Fine) : Faithful file done (left ++ more) next := by
  rw [Simple.write, if_pos (faithful.hasReader writes)] at stepped
  obtain ⟨pipe, pushed, rfl⟩ := Option.map_eq_some_iff.mp stepped
  obtain ⟨_, rfl⟩ := pushWhole_eq_some.mp pushed
  exact {
    whole := by
      rw [← faithful.whole, ← unsent]
      simp only [List.append_assoc]
    sent := by rw [faithful.sent, List.append_assoc]
    printed := faithful.printed
    nonempty := faithful.nonempty
    holds := by
      apply State.Holds.append faithful.holds (faithful.stays writes)
      · rw [frames_append, List.append_assoc, grows, List.append_assoc]
      · exact List.prefix_append left more
    fine := fine }

/-- Between two frames the child reads on. -/
theorem reading {capacity : Nat} {next : State} {rest word : List UInt8}
    (faithful : Faithful file done left state) (fits : Fits file)
    (childEq : state.child = .reading rest word)
    (stepped : childStep capacity state = some next) : Faithful file done left next := by
  have letters : ∀ letter ∈ word, isDelimiter letter = false := by
    have fine := faithful.fine
    rwa [childEq] at fine
  have hold (child : Child) (unsent : child.unsent = framesOf (word ++ rest))
      (begun : child.begun = []) (fine : child.Fine) :
      Faithful file done left { state with child := child } := by
    apply faithful.hold _ _ fine
    · rw [unsent, childEq, Child.unsent]
    · rw [begun, childEq]
      rfl
  rw [childStep_reading childEq] at stepped
  cases stepped
  have reads := reads_readNext isDelimiter maxWordLength rest word
  generalize readNext isDelimiter maxWordLength rest word = outcome at reads ⊢
  have accepted : outcome ≠ .refuse := by
    apply reads.accepted letters
    intro other member
    apply faithful.short fits other
    rw [childEq]
    exact List.mem_append_right _ (List.mem_append_left _ member)
  have unsent := framesOf_eq_of_reads reads letters accepted
  cases outcome with
  | send sent file => exact hold _ unsent rfl trivial
  | sendLast sent => exact hold _ unsent rfl trivial
  | finish => exact hold _ unsent rfl trivial
  | read file held => exact hold _ unsent rfl (reads.letters letters)
  | refuse => exact absurd rfl accepted

/-- A step of the child. -/
theorem childStep {capacity : Nat} {next : State} (faithful : Faithful file done left state)
    (fits : Fits file) (stepped : Simple.childStep capacity state = some next) :
    ∃ left', Faithful file done left' next := by
  have fine := faithful.fine
  cases childEq : state.child with
  | start rest =>
      simp only [Simple.childStep, childEq] at stepped
      cases stepped
      refine ⟨left, faithful.hold ?_ ?_ nofun⟩ <;> rw [childEq] <;> rfl
  | reading rest word => exact ⟨left, faithful.reading fits childEq stepped⟩
  | writeLength word caller =>
      simp only [Simple.childStep, childEq] at stepped
      have writes : state.child.unsent ≠ [] := by
        rw [childEq]
        exact List.cons_ne_nil _ _
      by_cases nonempty : word.length > 0
      · simp only [if_pos nonempty] at stepped
        refine ⟨left ++ [], faithful.write (.writeWord word caller) []
          (by simpa using stepped) writes ?_ ?_ (List.length_pos_iff.mp nonempty)⟩
        · rw [childEq]
          rfl
        · rw [childEq]
          rfl
      · simp only [if_neg nonempty] at stepped
        rw [gt_iff_lt, List.length_pos_iff, not_not] at nonempty
        subst nonempty
        refine ⟨left ++ [[]], faithful.write (afterSend caller) _ stepped writes ?_ ?_ ?_⟩
        · rw [childEq]
          cases caller <;> rfl
        · rw [childEq]
          cases caller <;> rfl
        · cases caller
          · exact nofun
          · trivial
          · trivial
  | writeWord word caller =>
      simp only [Simple.childStep, childEq] at stepped
      have writes : state.child.unsent ≠ [] := by
        rw [childEq]
        exact List.cons_ne_nil _ _
      refine ⟨left ++ [word], faithful.write (afterSend caller) _ stepped writes ?_ ?_ ?_⟩
      · rw [childEq]
        cases caller <;> rfl
      · rw [childEq]
        cases caller <;> simp [Child.begun, afterSend, frame, byteLength]
      · cases caller
        · exact nofun
        · trivial
        · trivial
  | closing =>
      simp only [Simple.childStep, childEq] at stepped
      cases stepped
      refine ⟨left, faithful.hold ?_ ?_ trivial⟩ <;> rw [childEq] <;> rfl
  | exited =>
      simp only [Simple.childStep, childEq] at stepped
      cases stepped
  | failed =>
      simp only [Simple.childStep, childEq] at stepped
      cases stepped

/-! ## Steps of the parent -/

/-- Only a child that has ended has no write end. -/
theorem exited_of_noWriter (faithful : Faithful file done left state)
    (noWriter : state.hasWriter = false) : state.child = .exited := by
  have fine := faithful.fine
  have ended : state.child = .exited ∨ state.child = .failed := by
    simpa [State.hasWriter, or_iff_not_imp_left] using (Bool.or_eq_false_iff.mp noWriter).2
  rcases ended with exited | failed
  · exact exited
  · rw [failed] at fine
    exact fine.elim

/-- What the child has begun to write has a length that is not zero. -/
theorem begun_cons (faithful : Faithful file done left state) (fits : Fits file)
    {length : UInt8} {rest : List UInt8} (begun : state.child.begun = length :: rest) :
    length ≠ 0 ∧ rest = [] ∧ state.hasWriter = true := by
  have fine := faithful.fine
  cases childEq : state.child with
  | writeWord word caller =>
      rw [childEq] at begun fine
      obtain ⟨rfl, rfl⟩ := List.cons_eq_cons.mp begun
      refine ⟨?_, rfl, by simp [State.hasWriter, childEq]⟩
      apply ofNat_length_ne_zero fine
      exact faithful.short fits word (by simp [childEq, Child.unsent])
  | _ =>
      rw [childEq] at begun
      cases begun

/-- The first of the frames that were not printed. -/
theorem frames_cons_eq {word : List UInt8} {rest : List (List UInt8)} {length : UInt8}
    {stream : List UInt8} (faithful : Faithful file done (word :: rest) state)
    (fits : Fits file)
    (split : length :: stream = frames byteLength (word :: rest) ++ state.child.begun) :
    length.toNat = word.length ∧
      stream = word ++ (frames byteLength rest ++ state.child.begun) := by
  rw [frames_cons, frame, List.cons_append, List.cons_append, List.append_assoc] at split
  obtain ⟨rfl, rfl⟩ := List.cons_eq_cons.mp split
  exact ⟨toNat_ofNat_length (faithful.short fits word (by simp)), rfl⟩

/-- The parent does not meet the end of the pipe before a length. -/
theorem pipe_ne_nil (faithful : Faithful file done left state)
    (holds : state.pipe = frames byteLength left ++ state.child.begun)
    (blocks : state.pipe = [] → state.hasWriter = false) : state.pipe ≠ [] := by
  intro empty
  have exited := faithful.exited_of_noWriter (blocks empty)
  rw [empty] at holds
  have whole := faithful.whole
  rcases left with _ | ⟨word, rest⟩
  · rw [exited, framesOf] at whole
    simp only [Child.unsent, List.append_nil] at whole
    exact faithful.nonempty [] (by rw [whole]; simp) rfl
  · simp [frame] at holds

/-- The parent reads a length. -/
theorem readLength (faithful : Faithful file done left state) (fits : Fits file)
    (parentEq : state.parent = .readLength) {next : State}
    (stepped : Simple.parentStep state = some next) : Faithful file done left next := by
  simp only [Simple.parentStep, parentEq, read] at stepped
  obtain ⟨⟨got, pipe⟩, pulled, rfl⟩ := Option.map_eq_some_iff.mp stepped
  obtain ⟨blocks, rfl, rfl⟩ := pullUpTo_eq_some.mp pulled
  have holds := faithful.holds
  simp only [State.Holds, parentEq] at holds
  obtain ⟨length, stream, pipeEq⟩ := List.exists_cons_of_ne_nil (faithful.pipe_ne_nil holds blocks)
  rw [pipeEq] at holds
  refine ⟨faithful.whole, faithful.sent, faithful.printed, faithful.nonempty, ?_, faithful.fine⟩
  simp only [pipeEq, List.take_succ_cons, List.take_zero, List.headD_cons, List.drop_succ_cons,
    List.drop_zero]
  by_cases zero : length = 0
  · simp only [State.Holds, if_pos zero]
    rcases left with _ | ⟨word, rest⟩
    · rw [frames_nil, List.nil_append] at holds
      exact absurd zero (faithful.begun_cons fits holds.symm).1
    · obtain ⟨lengthEq, streamEq⟩ := faithful.frames_cons_eq fits holds
      rw [zero] at lengthEq
      have empty : word = [] := List.length_eq_zero_iff.mp lengthEq.symm
      subst empty
      obtain ⟨rfl, unsent⟩ := faithful.last_of_empty
      have begun : state.child.begun = [] := by
        cases childEq : state.child with
        | writeWord word caller =>
            rw [childEq] at unsent
            cases unsent
        | _ => rfl
      exact ⟨rfl, by rw [streamEq, begun]; rfl, begun⟩
  · simp only [State.Holds, if_neg zero]
    exact ⟨zero, holds⟩

/-- The parent reads a word. -/
theorem readWord (faithful : Faithful file done left state) (fits : Fits file)
    (parentEq : state.parent = .readWord) {next : State}
    (stepped : Simple.parentStep state = some next) : Faithful file done left next := by
  simp only [Simple.parentStep, parentEq, read] at stepped
  obtain ⟨⟨got, pipe⟩, pulled, rfl⟩ := Option.map_eq_some_iff.mp stepped
  obtain ⟨blocks, rfl, rfl⟩ := pullUpTo_eq_some.mp pulled
  have holds := faithful.holds
  simp only [State.Holds, parentEq] at holds
  obtain ⟨nonzero, split⟩ := holds
  refine ⟨faithful.whole, faithful.sent, faithful.printed, faithful.nonempty, ?_, faithful.fine⟩
  rcases left with _ | ⟨word, rest⟩
  · rw [frames_nil, List.nil_append] at split
    obtain ⟨_, empty, writer⟩ := faithful.begun_cons fits split.symm
    rw [blocks empty] at writer
    cases writer
  · obtain ⟨lengthEq, streamEq⟩ := faithful.frames_cons_eq fits split
    have nonempty : word ≠ [] := by
      rintro rfl
      exact nonzero (UInt8.toNat_inj.mp lengthEq)
    rw [streamEq, lengthEq, List.take_left, List.drop_left]
    exact ⟨word, rest, _, rfl, nonempty, lengthEq.symm, rfl, rfl⟩

/-- The parent prints a line. -/
theorem print (faithful : Faithful file done left state) (parentEq : state.parent = .print)
    {next : State} (stepped : Simple.parentStep state = some next) :
    ∃ done' left', Faithful file done' left' next := by
  simp only [Simple.parentStep, parentEq] at stepped
  cases stepped
  have holds := faithful.holds
  simp only [State.Holds, parentEq] at holds
  obtain ⟨word, rest, more, rfl, nonempty, length, buffer, pipe⟩ := holds
  refine ⟨done ++ [word], rest, ?_, ?_, ?_, ?_, pipe, faithful.fine⟩
  · rw [← faithful.whole]
    simp
  · rw [faithful.sent]
    simp
  · have text : cString (state.word.set state.length.toNat 0) = cString word := by
      rw [buffer, ← length]
      cases more with
      | nil => rw [List.append_nil, List.set_eq_of_length_le (Nat.le_refl _)]
      | cons byte more => simp
    simp only [text, faithful.printed, List.map_append, List.map_singleton, line, length,
      UInt8.ofNat_toNat]
  · intro other member
    rcases List.mem_append.mp member with earlier | last
    · exact faithful.nonempty other earlier
    · rwa [List.mem_singleton.mp last]

/-- A step of the parent. -/
theorem parentStep {next : State} (faithful : Faithful file done left state) (fits : Fits file)
    (stepped : Simple.parentStep state = some next) :
    ∃ done' left', Faithful file done' left' next := by
  cases parentEq : state.parent with
  | start =>
      simp only [Simple.parentStep, parentEq] at stepped
      cases stepped
      have holds := faithful.holds
      simp only [State.Holds, parentEq] at holds
      exact ⟨done, left, faithful.whole, faithful.sent, faithful.printed, faithful.nonempty,
        holds, faithful.fine⟩
  | readLength => exact ⟨done, left, faithful.readLength fits parentEq stepped⟩
  | readWord => exact ⟨done, left, faithful.readWord fits parentEq stepped⟩
  | print => exact faithful.print parentEq stepped
  | closing =>
      simp only [Simple.parentStep, parentEq] at stepped
      cases stepped
      have holds := faithful.holds
      simp only [State.Holds, parentEq] at holds
      exact ⟨done, left, faithful.whole, faithful.sent, faithful.printed, faithful.nonempty,
        holds, faithful.fine⟩
  | exited =>
      simp only [Simple.parentStep, parentEq] at stepped
      cases stepped

/-- A step of either process. -/
theorem step {capacity : Nat} {action : Action} {next : State}
    (faithful : Faithful file done left state) (fits : Fits file)
    (stepped : Simple.step capacity state action = some next) :
    ∃ done' left', Faithful file done' left' next := by
  cases action with
  | child =>
      obtain ⟨left', after⟩ := faithful.childStep fits stepped
      exact ⟨done, left', after⟩
  | parent => exact faithful.parentStep fits stepped

theorem initial {file : List UInt8} {length : UInt8} {word : List UInt8} :
    Faithful file [] [] (initial file length word) where
  whole := rfl
  sent := rfl
  printed := rfl
  nonempty := nofun
  holds := rfl
  fine := trivial

end Faithful

theorem reachable_faithful {capacity : Nat} {file : List UInt8} {length : UInt8}
    {word : List UInt8} {state : State} (fits : Fits file)
    (reachable : Reachable (step capacity) (initial file length word) state) :
    ∃ done left, Faithful file done left state := by
  apply reachable.invariant ⟨[], [], Faithful.initial⟩
  rintro before action after ⟨done, left, faithful⟩ stepped
  exact faithful.step fits stepped

end CExamples.Pipe.Simple
