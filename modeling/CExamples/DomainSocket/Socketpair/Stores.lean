import CExamples.DomainSocket.Socketpair.Core
import CExamples.Word.Reader

/-!
# The stores into the word buffers of the socket pair

The child declares one byte more than `MAX_WORD_LENGTH` for its word and the parent does
not.  So the child is always inside its buffer, and the parent is for every word that
leaves room for its terminator.  Where a short transfer has the parent take a letter for a
length, the letter is none of the lengths that the child sent.
-/

namespace CExamples.DomainSocket.Socketpair

open CExamples.Transition
open CExamples.Word

/-! ## The indices -/

namespace State

/-- The indices of `word` to which a step stores in `child_process`. -/
def childStores (state : State) : Action → List Nat
  | .child _ =>
      match state.child with
      | .reading (ch :: _) word =>
          if isDelimiter ch then
            if word.length > 0 then [word.length] else []
          else if word.length ≥ maxWordLength then []
          else [word.length]
      | .reading [] word => if word.length > 0 then [word.length] else []
      | _ => []
  | _ => []

/-- The indices of `word` to which a step stores in `parent_process`. -/
def parentStores (state : State) : Action → List Nat
  | .parent count =>
      match state.parent with
      | .readWord =>
          match pull state.socket state.length.toNat count with
          | some (got, _) => List.range got.length
          | none => []
      | .print => [state.length.toNat]
      | _ => []
  | _ => []

end State

/-- In all runs on the file the stores of the child are inside its buffer, and so are
those of the parent for the frames that the child has sent. -/
def StoresInBounds (file : List UInt8) : Prop :=
  ∀ capacity length word state action next,
    Reachable (step capacity) (initial length word file) state →
      step capacity state action = some next →
        (∀ index ∈ state.childStores action, index < maxWordLength + 1) ∧
          (state.framed = true → ∀ index ∈ state.parentStores action, index < maxWordLength)

/-! ## What keeps them inside -/

/-- The words of the file leave room for their terminators. -/
def Roomy (file : List UInt8) : Prop :=
  LeavesRoom isDelimiter maxWordLength file

/-- The words that are sent later leave room. -/
def Caller.Roomy : Caller → Prop
  | .loop file => Socketpair.Roomy file
  | .lastWord => True
  | .terminator => True

namespace Child

/-- The child holds a word that is not too long. -/
def Short : Child → Prop
  | .reading _ word => word.length ≤ maxWordLength
  | _ => True

/-- The words that the child sends leave room. -/
def Roomy : Child → Prop
  | .start file => Socketpair.Roomy file
  | .reading file word => Socketpair.Roomy (word ++ file) ∧ word.length ≤ maxWordLength ∧
      ∀ letter ∈ word, isDelimiter letter = false
  | .writeLength word caller => word.length < maxWordLength ∧ caller.Roomy
  | .writeWord _ _ caller => caller.Roomy
  | _ => True

end Child

/-- A byte that is the length of a word leaves room. -/
def Sent.Roomy (sent : Sent) : Prop :=
  sent.heads = true → sent.byte.toNat < maxWordLength

/-- All lengths in the socket, and the one that the parent has read, leave room. -/
structure Framed (state : State) : Prop where
  child : state.child.Roomy
  socket : ∀ sent ∈ state.socket, sent.Roomy
  length : state.framed = true → state.length.toNat < maxWordLength

theorem Caller.Roomy.next {caller : Caller} (roomy : caller.Roomy) : caller.next.Roomy := by
  cases caller with
  | loop file => exact ⟨roomy, Nat.zero_le _, List.forall_mem_nil _⟩
  | lastWord => exact ⟨by decide, trivial⟩
  | terminator => trivial

theorem Caller.short_next (caller : Caller) : caller.next.Short := by
  cases caller with
  | loop file => exact Nat.zero_le _
  | lastWord => trivial
  | terminator => trivial

/-! ## Steps of the child -/

/-- The child after it has dealt with the next letter. -/
def Child.resume : Outcome UInt8 → Child
  | .send word file => .writeLength word (.loop file)
  | .sendLast word => .writeLength word .lastWord
  | .finish => .writeLength [] .terminator
  | .read file word => .reading file word
  | .refuse => .failed

section ChildSteps

variable {capacity count : Nat} {state next : State}

/-- A step at `fgetc`. -/
theorem childStep_reading {file word : List UInt8} (childEq : state.child = .reading file word) :
    childStep capacity state count = some { state with
      child := .resume (readNext isDelimiter maxWordLength file word) } := by
  rw [childStep, childEq]
  cases file with
  | nil =>
      simp only [readNext]
      split <;> rfl
  | cons ch file =>
      simp only [readNext]
      split
      · split <;> rfl
      · split <;> rfl

/-- What a step of the child does, or a call of the child that fails. -/
inductive ChildMoves (state : State) : State → Prop
  | opens {file : List UInt8} (childEq : state.child = .start file) :
      ChildMoves state { state with child := .reading file [] }
  | reads {file word : List UInt8} (childEq : state.child = .reading file word) :
      ChildMoves state { state with
        child := .resume (readNext isDelimiter maxWordLength file word) }
  | writesLength {word : List UInt8} {caller : Caller} {socket : List Sent} {child : Child}
      (childEq : state.child = .writeLength word caller)
      (written : ∀ sent ∈ socket, sent ∈ state.socket ∨ sent = ⟨UInt8.ofNat word.length, true⟩)
      (after : child = .writeWord word word caller ∨ child = caller.next) :
      ChildMoves state { state with socket := socket, child := child }
  | writesWord {word remaining : List UInt8} {caller : Caller} {socket : List Sent}
      {child : Child} (childEq : state.child = .writeWord word remaining caller)
      (written : ∀ sent ∈ socket, sent ∈ state.socket ∨ sent.heads = false)
      (after : (∃ left, child = .writeWord word left caller) ∨ child = caller.next) :
      ChildMoves state { state with socket := socket, child := child }
  | exits : ChildMoves state { state with child := .exited }
  | fails : ChildMoves state { state with child := .failed }

/-- The child either writes a part of its data, or it is killed. -/
theorem write_eq_some {heads : Bool} {data : List UInt8} {after : List UInt8 → Child}
    (stepped : write capacity state heads data count after = some next) :
    (∃ socket remaining, (∀ sent ∈ socket, sent ∈ state.socket ∨
        ∃ byte ∈ data, sent = ⟨byte, heads⟩) ∧
      next = { state with socket := socket, child := after remaining }) ∨
    next = { state with child := .failed } := by
  unfold write at stepped
  split at stepped
  · obtain ⟨⟨socket, remaining⟩, pushed, rfl⟩ := Option.map_eq_some_iff.mp stepped
    refine Or.inl ⟨socket, _, ?_, rfl⟩
    intro sent member
    have inside := List.mem_append_left remaining member
    rw [append_of_push pushed] at inside
    rcases List.mem_append.mp inside with before | written
    · exact Or.inl before
    · obtain ⟨byte, inData, rfl⟩ := List.mem_map.mp written
      exact Or.inr ⟨byte, inData, rfl⟩
  · cases stepped
    exact Or.inr rfl

theorem childStep_moves (stepped : childStep capacity state count = some next) :
    ChildMoves state next := by
  cases childEq : state.child with
  | start file =>
      simp only [childStep, childEq] at stepped
      cases stepped
      exact .opens childEq
  | reading file word =>
      rw [childStep_reading childEq] at stepped
      cases stepped
      exact .reads childEq
  | writeLength word caller =>
      simp only [childStep, childEq] at stepped
      rcases write_eq_some stepped with ⟨socket, remaining, written, rfl⟩ | rfl
      · refine .writesLength childEq ?_ ?_
        · intro sent member
          simpa using written sent member
        · split
          · exact Or.inl rfl
          · exact Or.inr rfl
      · exact .fails
  | writeWord word remaining caller =>
      simp only [childStep, childEq] at stepped
      rcases write_eq_some stepped with ⟨socket, left, written, rfl⟩ | rfl
      · refine .writesWord childEq ?_ ?_
        · intro sent member
          apply (written sent member).imp_right
          rintro ⟨byte, _, rfl⟩
          rfl
        · split
          · exact Or.inl ⟨_, rfl⟩
          · exact Or.inr rfl
      · exact .fails
  | closing =>
      simp only [childStep, childEq] at stepped
      cases stepped
      exact .exits
  | exited =>
      simp only [childStep, childEq] at stepped
      cases stepped
  | failed =>
      simp only [childStep, childEq] at stepped
      cases stepped

theorem childFails_moves (stepped : childFails state = some next) : ChildMoves state next := by
  cases childEq : state.child with
  | writeWord word remaining caller =>
      simp only [childFails, childEq] at stepped
      split at stepped
      · cases stepped
        exact .writesWord childEq (fun _ => Or.inl) (Or.inr rfl)
      · cases stepped
        exact .fails
  | reading file word =>
      simp only [childFails, childEq] at stepped
      cases stepped
  | exited =>
      simp only [childFails, childEq] at stepped
      cases stepped
  | failed =>
      simp only [childFails, childEq] at stepped
      cases stepped
  | _ =>
      simp only [childFails, childEq] at stepped
      cases stepped
      exact .fails

/-- The child deals with the next letter. -/
theorem Child.Roomy.resume {file word : List UInt8} (roomy : Child.Roomy (.reading file word)) :
    (Child.resume (readNext isDelimiter maxWordLength file word)).Roomy := by
  obtain ⟨roomy, short, letters⟩ := roomy
  have reads := reads_readNext isDelimiter maxWordLength file word
  generalize readNext isDelimiter maxWordLength file word = outcome at reads
  rw [Socketpair.Roomy, LeavesRoom, (reads.wordsBy_eq letters short).1] at roomy
  cases reads with
  | send => exact List.forall_mem_cons.mp roomy
  | sendLast => exact ⟨(List.forall_mem_cons.mp roomy).1, trivial⟩
  | finish => exact ⟨by decide, trivial⟩
  | refuse => trivial
  | skip => exact ⟨roomy, short, letters⟩
  | collect ordinary room =>
      refine ⟨roomy, ?_, letters_concat letters ordinary⟩
      rw [List.length_append]
      exact room

/-- The lengths that the child writes leave room. -/
theorem Framed.childMoves (framed : Framed state) (moves : ChildMoves state next) :
    Framed next := by
  have roomy := framed.child
  cases moves with
  | opens childEq =>
      rw [childEq] at roomy
      exact ⟨⟨roomy, Nat.zero_le _, List.forall_mem_nil _⟩, framed.socket, framed.length⟩
  | reads childEq =>
      rw [childEq] at roomy
      exact ⟨roomy.resume, framed.socket, framed.length⟩
  | writesLength childEq written after =>
      rw [childEq] at roomy
      obtain ⟨room, roomy⟩ := roomy
      constructor
      · rcases after with rfl | rfl
        · exact roomy
        · exact roomy.next
      · intro sent member
        rcases written sent member with before | rfl
        · exact framed.socket sent before
        · intro _
          rwa [toNat_ofNat_length (Nat.le_of_lt room)]
      · exact framed.length
  | writesWord childEq written after =>
      rw [childEq] at roomy
      constructor
      · rcases after with ⟨left, rfl⟩ | rfl
        · exact roomy
        · exact Caller.Roomy.next roomy
      · intro sent member
        rcases written sent member with before | letter
        · exact framed.socket sent before
        · intro isHead
          rw [letter] at isHead
          cases isHead
      · exact framed.length
  | exits => exact ⟨trivial, framed.socket, framed.length⟩
  | fails => exact ⟨trivial, framed.socket, framed.length⟩

/-- The word that the child holds stays short. -/
theorem short_childMoves (short : state.child.Short) (moves : ChildMoves state next) :
    next.child.Short := by
  cases moves with
  | opens => exact Nat.zero_le _
  | @reads file word childEq =>
      rw [childEq] at short
      have reads := reads_readNext isDelimiter maxWordLength file word
      generalize readNext isDelimiter maxWordLength file word = outcome at reads
      cases reads with
      | skip => exact short
      | collect ordinary room =>
          change (word ++ [_]).length ≤ maxWordLength
          rw [List.length_append]
          exact room
      | _ => trivial
  | @writesLength word caller _ _ _ _ after =>
      rcases after with rfl | rfl
      · trivial
      · exact caller.short_next
  | @writesWord word remaining caller _ _ _ _ after =>
      rcases after with ⟨left, rfl⟩ | rfl
      · trivial
      · exact caller.short_next
  | exits => trivial
  | fails => trivial

end ChildSteps

/-! ## Steps of the parent -/

section ParentSteps

variable {count : Nat} {state next : State}

/-- The parent reads nothing at the end of the stream, and otherwise takes bytes off its
front. -/
theorem read_eq_some {wanted : Nat} {after : List Sent → State → State}
    (stepped : read state wanted count after = some next) :
    ∃ got socket, got ++ socket = state.socket ∧ next = after got { state with socket := socket } := by
  unfold read at stepped
  split at stepped
  · cases stepped
    exact ⟨[], state.socket, rfl, rfl⟩
  · obtain ⟨⟨got, socket⟩, pulled, rfl⟩ := Option.map_eq_some_iff.mp stepped
    exact ⟨got, socket, (append_of_pull pulled).1, rfl⟩

/-- The parent does not touch the child. -/
theorem child_parentStep (stepped : parentStep state count = some next) :
    next.child = state.child := by
  unfold parentStep at stepped
  split at stepped
  · cases stepped
    rfl
  · obtain ⟨_, _, _, rfl⟩ := read_eq_some stepped
    rfl
  · obtain ⟨_, _, _, rfl⟩ := read_eq_some stepped
    rfl
  · cases stepped
    rfl
  · cases stepped
    rfl
  · cases stepped
  · cases stepped

/-- A `read` of the parent that fails ends it. -/
theorem parentFails_eq_some (stepped : parentFails state = some next) :
    next = { state with parent := .failed } := by
  unfold parentFails at stepped
  split at stepped
  · cases stepped
    rfl
  · cases stepped
    rfl
  · cases stepped

/-- A step of the parent. -/
theorem Framed.parentStep (framed : Framed state)
    (stepped : parentStep state count = some next) : Framed next := by
  unfold Socketpair.parentStep at stepped
  split at stepped
  · cases stepped
    exact ⟨framed.child, framed.socket, framed.length⟩
  · obtain ⟨got, socket, taken, rfl⟩ := read_eq_some stepped
    have roomy := framed.socket
    rw [← taken] at roomy
    refine ⟨framed.child, fun sent member => roomy sent (List.mem_append_right _ member), ?_⟩
    cases got with
    | nil => exact nofun
    | cons head got => exact roomy head List.mem_cons_self
  · obtain ⟨got, socket, taken, rfl⟩ := read_eq_some stepped
    have roomy := framed.socket
    rw [← taken] at roomy
    exact ⟨framed.child, fun sent member => roomy sent (List.mem_append_right _ member),
      framed.length⟩
  · cases stepped
    exact ⟨framed.child, framed.socket, framed.length⟩
  · cases stepped
    exact ⟨framed.child, framed.socket, framed.length⟩
  · cases stepped
  · cases stepped

end ParentSteps

/-! ## All runs -/

section Runs

variable {capacity : Nat} {length : UInt8} {word file : List UInt8} {state : State}

/-- The child never holds a word that is too long. -/
theorem reachable_short (reachable : Reachable (step capacity) (initial length word file) state) :
    state.child.Short := by
  apply reachable.invariant
  · trivial
  · intro before action after short stepped
    cases action with
    | child count => exact short_childMoves short (childStep_moves stepped)
    | parent count => rwa [child_parentStep stepped]
    | childFails => exact short_childMoves short (childFails_moves stepped)
    | parentFails =>
        rw [parentFails_eq_some stepped]
        exact short

theorem reachable_framed (roomy : Roomy file)
    (reachable : Reachable (step capacity) (initial length word file) state) : Framed state := by
  apply reachable.invariant
  · exact ⟨roomy, List.forall_mem_nil _, nofun⟩
  · intro before action after framed stepped
    cases action with
    | child count => exact framed.childMoves (childStep_moves stepped)
    | parent count => exact framed.parentStep stepped
    | childFails => exact framed.childMoves (childFails_moves stepped)
    | parentFails =>
        rw [parentFails_eq_some stepped]
        exact ⟨framed.child, framed.socket, framed.length⟩

end Runs

/-- The child has a byte for the terminator. -/
theorem childStores_lt {state : State} (short : state.child.Short) (action : Action) :
    ∀ index ∈ state.childStores action, index < maxWordLength + 1 := by
  unfold State.childStores
  split
  · split
    · rename_i ch file word childEq
      rw [childEq] at short
      intro index member
      split_ifs at member with delimits nonempty full
      · rw [List.mem_singleton.mp member]
        exact Nat.lt_succ_of_le short
      · cases member
      · cases member
      · rw [List.mem_singleton.mp member]
        exact Nat.lt_succ_of_le short
    · rename_i word childEq
      rw [childEq] at short
      intro index member
      split_ifs at member with nonempty
      · rw [List.mem_singleton.mp member]
        exact Nat.lt_succ_of_le short
      · cases member
    · exact List.forall_mem_nil _
  · exact List.forall_mem_nil _

/-- The parent stores words that leave room. -/
theorem parentStores_lt {state : State} (room : state.length.toNat < maxWordLength)
    (action : Action) : ∀ index ∈ state.parentStores action, index < maxWordLength := by
  unfold State.parentStores
  split
  · split
    · intro index member
      split at member
      · rename_i got socket pulled
        have atMost := (append_of_pull pulled).2.2
        rw [List.mem_range] at member
        omega
      · cases member
    · intro index member
      rwa [List.mem_singleton.mp member]
    · exact List.forall_mem_nil _
  · exact List.forall_mem_nil _

theorem Roomy.storesInBounds {file : List UInt8} (roomy : Roomy file) : StoresInBounds file := by
  intro capacity length word state action next reachable stepped
  constructor
  · exact childStores_lt (reachable_short reachable) action
  · intro isFrame
    exact parentStores_lt ((reachable_framed roomy reachable).length isFrame) action

/-! ## A word that fills the buffer -/

/-- The child reads on, and the parent has read all it was sent. -/
structure Waiting (file word : List UInt8) (state : State) : Prop where
  child : state.child = .reading file word
  parent : state.parent = .readLength
  socket : state.socket = []

/-- The child goes on at `after`, and the parent has read the word that was sent. -/
structure Received (word : List UInt8) (after : Child) (state : State) : Prop where
  child : state.child = after
  parent : state.parent = .print
  socket : state.socket = []
  length : state.length = UInt8.ofNat word.length
  framed : state.framed = true

/-- The bytes of marked bytes. -/
@[simp]
theorem byte_comp_mk (heads : Bool) : (Sent.byte ∘ fun byte => ⟨byte, heads⟩) = id :=
  rfl

/-- The parent prints what it has received. -/
theorem Received.prints {capacity : Nat} {word : List UInt8} {after : Child} {state : State}
    (received : Received word after state) :
    step capacity state (.parent 0) = some state.printLine := by
  rw [step, parentStep, received.parent]

/-- The next letter is dealt with. -/
theorem reachable_of_reading {capacity : Nat} {file word : List UInt8} {state : State}
    (childEq : state.child = .reading file word) :
    Reachable (step capacity) state { state with
      child := .resume (readNext isDelimiter maxWordLength file word) } := by
  have moved : step capacity state (.child 0) = _ := childStep_reading childEq
  exact Reachable.single moved

/-- A word that is sent is received. -/
theorem Waiting.receives {capacity : Nat} {file word : List UInt8} {caller : Caller} {state : State}
    (waiting : Waiting file word state) (large : 256 ≤ capacity) (nonempty : word ≠ [])
    (fits : word.length ≤ maxWordLength)
    (sends : Child.resume (readNext isDelimiter maxWordLength file word) =
      .writeLength word caller) :
    ∃ later, Reachable (step capacity) state later ∧ Received word caller.next later := by
  obtain ⟨child, parent, socket, length, framed, buffer, printed⟩ := state
  obtain ⟨rfl, rfl, rfl⟩ := waiting
  have first : Reachable (step capacity)
      ⟨.reading file word, .readLength, [], length, framed, buffer, printed⟩ _ :=
    reachable_of_reading rfl
  rw [sends] at first
  have positive : 0 < word.length := List.length_pos_iff.mpr nonempty
  have lengthEq := toNat_ofNat_length fits
  have nonzero := ofNat_length_ne_zero nonempty fits
  have room : 1 + word.length ≤ capacity := by
    rw [maxWordLength] at fits
    omega
  have someRoom : 0 < capacity := by omega
  have run : exec (step capacity)
      ⟨.writeLength word caller, .readLength, [], length, framed, buffer, printed⟩
      [.child 1, .child word.length, .parent 1, .parent word.length] =
        some ⟨caller.next, .print, [], UInt8.ofNat word.length, true,
          word ++ buffer.drop word.length, printed⟩ := by
    simp [exec, step, childStep, parentStep, write, read, State.hasReader, State.takeLength,
      State.takeWord, push, pull, Nat.succ_le_iff, nonempty, positive, lengthEq, nonzero, room,
      someRoom]
  exact ⟨_, first.trans (reachable_of_exec run), rfl, rfl, rfl, rfl, rfl⟩

/-- The child reads the file whatever its words are. -/
theorem reader {capacity : Nat} (large : 256 ≤ capacity) :
    Reader (step capacity) isDelimiter maxWordLength Waiting (fun state => state.child = .failed)
    where
  skip := by
    rintro ch file state delimits ⟨child, parent, socket⟩
    refine ⟨_, reachable_of_reading child, ?_, parent, socket⟩
    simp [readNext, delimits, Child.resume]
  send := by
    rintro ch file word state delimits nonempty _ fits waiting
    have sends : Child.resume (readNext isDelimiter maxWordLength (ch :: file) word) =
        .writeLength word (.loop file) := by
      rw [readNext, if_pos delimits, if_pos (List.length_pos_iff.mpr nonempty), Child.resume]
    obtain ⟨middle, reached, received⟩ := waiting.receives large nonempty fits sends
    exact ⟨middle.printLine, reached.tail received.prints, received.child, rfl, received.socket⟩
  collect := by
    rintro ch file word state ordinary room ⟨child, parent, socket⟩
    refine ⟨_, reachable_of_reading child, ?_, parent, socket⟩
    simp [readNext, ordinary, Nat.not_le.mpr room, Child.resume]
  refuse := by
    rintro ch file word state ordinary full _ ⟨child, parent, socket⟩
    refine ⟨_, reachable_of_reading child, ?_⟩
    simp [readNext, ordinary, full, Child.resume]

/-- The parent terminates a word that fills its buffer behind it. -/
theorem exists_store {capacity : Nat} {file : List UInt8} (large : 256 ≤ capacity)
    (crowded : ¬Roomy file) (length : UInt8) (word : List UInt8) :
    ∃ state next, Reachable (step capacity) (initial length word file) state ∧
      step capacity state (.parent 0) = some next ∧ state.framed = true ∧
        maxWordLength ∈ state.parentStores (.parent 0) := by
  rw [Roomy, LeavesRoom] at crowded
  push Not at crowded
  obtain ⟨target, member, long⟩ := crowded
  have run : exec (step capacity) (initial length word file) [.child 0, .parent 0] =
      some ⟨.reading file [], .readLength, [], length, false, word, []⟩ := rfl
  have starts : Waiting file [] ⟨.reading file [], .readLength, [], length, false, word, []⟩ :=
    ⟨rfl, rfl, rfl⟩
  obtain ⟨rest, state, reads, waiting, ends⟩ :=
    (reader large).completes (List.forall_mem_nil _) (Nat.zero_le _) member starts
  obtain ⟨nonempty, short⟩ := of_mem_acceptedBy member
  have full : target.length = maxWordLength := Nat.le_antisymm short long
  have positive : target.length > 0 := List.length_pos_iff.mpr nonempty
  have sends : ∃ caller, Child.resume (readNext isDelimiter maxWordLength rest target) =
      .writeLength target caller := by
    cases rest with
    | nil => exact ⟨.lastWord, by rw [readNext, if_pos positive, Child.resume]⟩
    | cons ch rest =>
        exact ⟨.loop rest, by rw [readNext, if_pos (ends ch rfl), if_pos positive, Child.resume]⟩
  obtain ⟨caller, sends⟩ := sends
  obtain ⟨last, receives, received⟩ := waiting.receives large nonempty short sends
  refine ⟨last, last.printLine, ?_, received.prints, received.framed, ?_⟩
  · exact ((reachable_of_exec run).trans reads).trans receives
  · rw [State.parentStores, received.parent, received.length]
    dsimp only
    rw [toNat_ofNat_length short, full]
    exact List.mem_cons_self

/-- On which files both processes stay inside their buffers. -/
theorem storesInBounds_iff {file : List UInt8} : StoresInBounds file ↔ Roomy file := by
  constructor
  · intro inBounds
    by_contra crowded
    obtain ⟨state, next, reachable, stepped, isFrame, member⟩ :=
      exists_store (Nat.le_refl 256) crowded 0 []
    have inside := (inBounds _ _ _ _ _ _ reachable stepped).2 isFrame _ member
    exact Nat.lt_irrefl _ inside
  · exact Roomy.storesInBounds

end CExamples.DomainSocket.Socketpair
