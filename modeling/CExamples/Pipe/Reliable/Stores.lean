import CExamples.Pipe.Reliable.Failure

/-!
# The stores into the word buffers of the reliable pipe

Both processes declare `word` with `MAX_WORD_LENGTH` bytes, and the child accepts words
of that length, which leave no byte for the terminator.  On the files without such a
word both processes stay inside their buffers, however the calls are interleaved and
split, and also if the child leaves at a word that is too long.  A process that leaves at
a failed call stores nothing more, and to the other one it is no different from a slow one.
-/

namespace CExamples.Pipe.Reliable

open CExamples.Transition
open CExamples.Word

/-! ## The indices -/

/-- The indices of `word` to which the next step of `child_process` stores. -/
def childStores (state : State) : List Nat :=
  match state.child with
  | .reading (ch :: _) word =>
      if isDelimiter ch then
        if word.length > 0 then [word.length] else []
      else if word.length ≥ maxWordLength then []
      else [word.length]
  | .reading [] word => if word.length > 0 then [word.length] else []
  | _ => []

/-- The indices of `word` to which a step of `parent_process` stores, where `count` is the
size of its transfer. -/
def parentStores (state : State) (count : Nat) : List Nat :=
  match state.parent with
  | .readWord length got =>
      match pull state.pipe (length.toNat - got.length) count with
      | some (more, _) => List.range' got.length more.length
      | none => []
  | .print length _ => [length.toNat]
  | _ => []

/-- The indices to which a step stores. -/
def stores (state : State) : Action → List Nat
  | .child _ => childStores state
  | .parent count => parentStores state count

/-- In all runs on the file all stores are inside the buffers, whatever the capacity of
the pipe is and whatever the semaphores start with. -/
def StoresInBounds (file : List UInt8) : Prop :=
  ∀ capacity semParent semChild state action next,
    Reachable (step capacity) (initial semParent semChild file) state →
      step capacity state action = some next →
        ∀ index ∈ stores state action, index < maxWordLength

/-! ## What keeps them inside -/

/-- The words of the file leave room for their terminators. -/
def Roomy (file : List UInt8) : Prop :=
  LeavesRoom isDelimiter maxWordLength file

/-- The words that are sent later leave room. -/
def Caller.Roomy : Caller → Prop
  | .loop file => Reliable.Roomy file
  | .lastWord => True
  | .terminator => True

namespace Child

/-- The words that the child sends leave room. -/
def Roomy : Child → Prop
  | .start file => Reliable.Roomy file
  | .reading file word => Reliable.Roomy (word ++ file) ∧ word.length ≤ maxWordLength ∧
      ∀ letter ∈ word, isDelimiter letter = false
  | .writeLength word caller => word.length < maxWordLength ∧ caller.Roomy
  | .writeWord _ _ caller => caller.Roomy
  | .post _ caller => caller.Roomy
  | .wait caller => caller.Roomy
  | _ => True

end Child

/-- The parent still has to read `more` of the word whose length it has read. -/
def Parent.Expects (more : List UInt8) : Parent → Prop
  | .readWord length got => length.toNat < maxWordLength ∧ got.length + more.length = length.toNat
  | .print length _ => length.toNat < maxWordLength ∧ more = []
  | _ => more = []

/-- What the parent still has to read are words that leave room; `lost` is what a child
that has failed has not written of the last one. -/
structure Framed (state : State) : Prop where
  stream : ∃ more words lost, state.parent.Expects more ∧
    (∀ word ∈ words, word.length < maxWordLength) ∧ (state.child ≠ .failed → lost = []) ∧
      state.pipe ++ state.child.current ++ lost = more ++ frames byteLength words
  child : state.child.Roomy

/-! ## Steps of the child -/

section ChildSteps

variable {capacity count : Nat} {state next : State}

/-- Between two frames the child goes on. -/
theorem Framed.goes (framed : Framed state) {child : Child} {semParent semChild : Nat} {stray : Bool}
    (before : state.child.current = []) (running : state.child ≠ .failed)
    (after : child.current = []) (roomy : child.Roomy) :
    Framed { state with
      child := child, semParent := semParent, semChild := semChild, stray := stray } := by
  obtain ⟨⟨more, words, lost, expects, short, whole, split⟩, _⟩ := framed
  rw [before, whole running] at split
  refine ⟨⟨more, words, [], expects, short, fun _ => rfl, ?_⟩, roomy⟩
  rw [after]
  exact split

/-- The child begins to send a word. -/
theorem Framed.sends (framed : Framed state) {word : List UInt8} {caller : Caller} {semChild : Nat}
    {stray : Bool} (before : state.child.current = []) (running : state.child ≠ .failed)
    (room : word.length < maxWordLength) (roomy : caller.Roomy) :
    Framed { state with
      child := .writeLength word caller, semChild := semChild, stray := stray } := by
  obtain ⟨⟨more, words, lost, expects, short, whole, split⟩, _⟩ := framed
  rw [before, whole running, List.append_nil, List.append_nil] at split
  refine ⟨⟨more, words ++ [word], [], expects, ?_, fun _ => rfl, ?_⟩, room, roomy⟩
  · intro other member
    rcases List.mem_append.mp member with earlier | last
    · exact short other earlier
    · rwa [List.mem_singleton.mp last]
  · rw [frames_append, frames_cons, frames_nil, List.append_nil, List.append_nil,
      ← List.append_assoc, ← split]
    rfl

/-- The child writes, or is killed in its write. -/
theorem Framed.writes (framed : Framed state) {data : List UInt8} {after : List UInt8 → Child}
    (rest : List UInt8) (running : state.child ≠ .failed)
    (stepped : write capacity state data count after = some next)
    (current : state.child.current = data ++ rest)
    (written : ∀ remaining, remaining.length < data.length →
      (after remaining).current = remaining ++ rest ∧ (after remaining).Roomy) :
    Framed next := by
  obtain ⟨⟨more, words, lost, expects, short, whole, split⟩, _⟩ := framed
  rw [current, whole running, List.append_nil] at split
  unfold write at stepped
  split at stepped
  · obtain ⟨⟨pipe, remaining⟩, pushed, rfl⟩ := Option.map_eq_some_iff.mp stepped
    obtain ⟨currentEq, roomy⟩ := written remaining (suffix_of_push pushed).2
    refine ⟨⟨more, words, [], expects, short, fun _ => rfl, ?_⟩, roomy⟩
    rw [currentEq, List.append_nil, ← split, ← List.append_assoc, append_of_push pushed,
      List.append_assoc]
  · cases stepped
    refine ⟨⟨more, words, data ++ rest, expects, short, fun alive => absurd rfl alive, ?_⟩, trivial⟩
    change state.pipe ++ [] ++ (data ++ rest) = _
    rw [List.append_nil]
    exact split

/-- The child deals with the next letter. -/
theorem Framed.resumes (framed : Framed state) {file word : List UInt8}
    (childEq : state.child = .reading file word) :
    Framed (state.resume (readNext isDelimiter maxWordLength file word)) := by
  have before : state.child.current = [] := by
    rw [childEq]
    rfl
  have running : state.child ≠ .failed := by simp [childEq]
  obtain ⟨roomy, short, letters⟩ : Child.Roomy (.reading file word) := childEq ▸ framed.child
  have reads := reads_readNext isDelimiter maxWordLength file word
  generalize readNext isDelimiter maxWordLength file word = outcome at reads
  have accepted := (reads.wordsBy_eq letters short).1
  rw [Reliable.Roomy, LeavesRoom, accepted] at roomy
  cases reads with
  | send =>
      obtain ⟨room, rest⟩ := List.forall_mem_cons.mp roomy
      exact framed.sends before running room rest
  | sendLast => exact framed.sends before running (List.forall_mem_cons.mp roomy).1 trivial
  | finish => exact framed.sends before running (by decide) trivial
  | refuse => exact framed.goes before running rfl trivial
  | skip => exact framed.goes before running rfl ⟨roomy, short, letters⟩
  | collect ordinary room =>
      apply framed.goes before running rfl
      refine ⟨roomy, ?_, letters_concat letters ordinary⟩
      rw [List.length_append]
      exact room

/-- A step of the child. -/
theorem Framed.childStep (framed : Framed state)
    (stepped : childStep capacity state count = some next) : Framed next := by
  have roomy := framed.child
  cases childStep_moves stepped with
  | opens childEq =>
      rw [childEq] at roomy
      exact framed.goes (by rw [childEq]; rfl) (by simp [childEq]) rfl
        ⟨roomy, Nat.zero_le _, List.forall_mem_nil _⟩
  | reads childEq => exact framed.resumes childEq
  | @writesLength word caller _ childEq written =>
      rw [childEq] at roomy
      apply framed.writes word (by simp [childEq]) written
      · rw [childEq]
        rfl
      · intro remaining shorter
        have all : remaining = [] := List.length_eq_zero_iff.mp (Nat.lt_one_iff.mp shorter)
        subst all
        split
        · exact ⟨rfl, roomy.2⟩
        · rename_i empty
          rw [List.length_eq_zero_iff.mp (Nat.eq_zero_of_not_pos empty)]
          exact ⟨rfl, roomy.2⟩
  | writesWord childEq written =>
      rw [childEq] at roomy
      apply framed.writes [] (by simp [childEq]) written
      · rw [childEq, List.append_nil]
        rfl
      · intro left shorter
        rw [List.append_nil]
        split
        · exact ⟨rfl, roomy⟩
        · rename_i empty
          rw [List.length_eq_zero_iff.mp (Nat.eq_zero_of_not_pos empty)]
          exact ⟨rfl, roomy⟩
  | posts childEq =>
      rw [childEq] at roomy
      exact framed.goes (by rw [childEq]; rfl) (by simp [childEq]) rfl roomy
  | @waits caller semChild childEq waited =>
      rw [childEq] at roomy
      have before : state.child.current = [] := by
        rw [childEq]
        rfl
      have running : state.child ≠ .failed := by simp [childEq]
      cases caller with
      | loop file =>
          exact framed.goes before running rfl ⟨roomy, Nat.zero_le _, List.forall_mem_nil _⟩
      | lastWord => exact framed.sends before running (by decide) trivial
      | terminator => exact framed.goes before running rfl trivial
  | exits childEq =>
      exact framed.goes (by rw [childEq]; rfl) (by simp [childEq]) rfl trivial

end ChildSteps

/-! ## Steps of the parent -/

section ParentSteps

variable {count : Nat} {state next : State}

/-- Between two reads the parent goes on. -/
theorem Framed.turns (framed : Framed state) {parent : Parent} {semParent semChild : Nat}
    {printed : List Line} {stray : Bool}
    (expects : ∀ more, state.parent.Expects more → parent.Expects more) :
    Framed { state with
      parent := parent, semParent := semParent, semChild := semChild, printed := printed
      stray := stray } := by
  obtain ⟨⟨more, words, lost, before, stream⟩, roomy⟩ := framed
  exact ⟨⟨more, words, lost, expects more before, stream⟩, roomy⟩

/-- The parent reads the length of a word that leaves room. -/
theorem Framed.readsLength (framed : Framed state) (parentEq : state.parent = .readLength)
    (taken : read state 1 count (fun got =>
      if got.headD 0 = 0 then .closing else .readWord (got.headD 0) []) = some next) :
    Framed next := by
  have framed' := framed
  obtain ⟨⟨more, words, lost, expects, short, whole, split⟩, roomy⟩ := framed'
  rcases read_eq_some taken with rfl | ⟨got, pipe, pulled, rfl⟩
  · exact framed
  · obtain ⟨taken, nonempty, atMost⟩ := append_of_pull pulled
    have single : got.length = 1 := Nat.le_antisymm atMost (List.length_pos_iff.mpr nonempty)
    obtain ⟨letter, rfl⟩ := List.length_eq_one_iff.mp single
    have none : more = [] := by
      rw [parentEq] at expects
      exact expects
    rw [← taken, none] at split
    cases words with
    | nil => cases split
    | cons word words =>
        obtain ⟨room, shorter⟩ := List.forall_mem_cons.mp short
        obtain ⟨letterEq, rest⟩ := List.cons.inj split
        have lengthEq : letter.toNat = word.length := by
          rw [letterEq]
          exact toNat_ofNat_length (Nat.le_of_lt room)
        change pipe ++ state.child.current ++ lost = word ++ frames byteLength words at rest
        rw [List.headD_cons]
        split_ifs with zero
        · refine ⟨⟨[], words, lost, rfl, shorter, whole, ?_⟩, roomy⟩
          have empty : word = [] := by
            rw [← List.length_eq_zero_iff, ← lengthEq, zero, UInt8.toNat_zero]
          rw [rest, empty]
        · refine ⟨⟨word, words, lost, ⟨?_, ?_⟩, shorter, whole, rest⟩, roomy⟩
          · rwa [lengthEq]
          · rw [List.length_nil, Nat.zero_add, lengthEq]

/-- The parent reads bytes of the word. -/
theorem Framed.readsWord (framed : Framed state) {length : UInt8} {got : List UInt8}
    (parentEq : state.parent = .readWord length got)
    (taken : read state (length.toNat - got.length) count (fun more =>
      if (got ++ more).length < length.toNat then .readWord length (got ++ more)
      else .print length (got ++ more)) = some next) : Framed next := by
  have framed' := framed
  obtain ⟨⟨more, words, lost, expects, short, whole, split⟩, roomy⟩ := framed'
  rcases read_eq_some taken with rfl | ⟨part, pipe, pulled, rfl⟩
  · exact framed
  · obtain ⟨taken, -, atMost⟩ := append_of_pull pulled
    rw [parentEq] at expects
    obtain ⟨room, lengthEq⟩ := expects
    rw [← taken, List.append_assoc, List.append_assoc] at split
    have front : part <+: more :=
      List.prefix_of_prefix_length_le ⟨_, split⟩ (List.prefix_append _ _) (by omega)
    obtain ⟨left, rfl⟩ := front
    rw [List.append_assoc, List.append_cancel_left_eq, ← List.append_assoc] at split
    rw [List.length_append] at lengthEq
    refine ⟨⟨left, words, lost, ?_, short, whole, split⟩, roomy⟩
    dsimp only
    split_ifs with partial'
    · refine ⟨room, ?_⟩
      rw [List.length_append]
      omega
    · refine ⟨room, ?_⟩
      rw [List.length_append] at partial'
      rw [← List.length_eq_zero_iff]
      omega

/-- A step of the parent. -/
theorem Framed.parentStep (framed : Framed state)
    (stepped : parentStep state count = some next) : Framed next := by
  cases parentStep_moves stepped with
  | readsLength parentEq taken => exact framed.readsLength parentEq taken
  | readsWord parentEq taken => exact framed.readsWord parentEq taken
  | prints parentEq =>
      apply framed.turns
      intro more expects
      rw [parentEq] at expects
      exact expects.2
  | opens parentEq | waits parentEq | posts parentEq | exits parentEq =>
      exact framed.turns fun more expects => by rwa [parentEq] at expects

end ParentSteps

/-! ## All runs -/

theorem Framed.initial {semParent semChild : Nat} {file : List UInt8} (roomy : Roomy file) :
    Framed (initial semParent semChild file) where
  stream := ⟨[], [], [], rfl, List.forall_mem_nil _, fun _ => rfl, rfl⟩
  child := roomy

theorem reachable_framed {capacity semParent semChild : Nat} {file : List UInt8} {state : State}
    (roomy : Roomy file)
    (reachable : Reachable (step capacity) (initial semParent semChild file) state) :
    Framed state := by
  apply reachable.invariant (Framed.initial roomy)
  intro before action after framed stepped
  cases action with
  | child count => exact framed.childStep stepped
  | parent count => exact framed.parentStep stepped

/-- The child terminates words that leave room. -/
theorem childStores_lt {state : State} (roomy : state.child.Roomy) :
    ∀ index ∈ childStores state, index < maxWordLength := by
  unfold childStores
  cases childEq : state.child with
  | reading file word =>
      rw [childEq] at roomy
      obtain ⟨roomy, short, letters⟩ := roomy
      have accepted := (reads_readNext isDelimiter maxWordLength file word).wordsBy_eq letters short
      rw [Reliable.Roomy, LeavesRoom, accepted.1] at roomy
      cases file with
      | nil =>
          intro index member
          simp only [List.mem_ite_nil_right, List.mem_singleton] at member
          obtain ⟨nonempty, rfl⟩ := member
          rw [readNext, if_pos nonempty] at roomy
          exact (List.forall_mem_cons.mp roomy).1
      | cons ch file =>
          intro index member
          dsimp only at member
          split_ifs at member with delimits nonempty full
          · rw [readNext, if_pos delimits, if_pos nonempty] at roomy
            rw [List.mem_singleton.mp member]
            exact (List.forall_mem_cons.mp roomy).1
          · cases member
          · cases member
          · rw [List.mem_singleton.mp member]
            exact Nat.lt_of_not_le full
  | _ => exact List.forall_mem_nil _

/-- The parent stores words that leave room. -/
theorem parentStores_lt {state : State} {count : Nat} {more : List UInt8}
    (expects : state.parent.Expects more) :
    ∀ index ∈ parentStores state count, index < maxWordLength := by
  unfold parentStores
  cases parentEq : state.parent with
  | readWord length got =>
      rw [parentEq] at expects
      obtain ⟨room, lengthEq⟩ := expects
      intro index member
      dsimp only at member
      split at member
      · rename_i part pipe pulled
        have atMost := (append_of_pull pulled).2.2
        rw [List.mem_range'_1] at member
        omega
      · cases member
  | print length word =>
      rw [parentEq] at expects
      intro index member
      rw [List.mem_singleton.mp member]
      exact expects.1
  | _ => exact List.forall_mem_nil _

theorem Roomy.storesInBounds {file : List UInt8} (roomy : Roomy file) : StoresInBounds file := by
  intro capacity semParent semChild state action next reachable stepped
  have framed := reachable_framed roomy reachable
  cases action with
  | child count => exact childStores_lt framed.child
  | parent count =>
      obtain ⟨more, _, _, expects, _⟩ := framed.stream
      exact parentStores_lt expects

/-! ## A word that fills the buffer -/

/-- The child terminates a word that fills its buffer behind it. -/
theorem exists_store {capacity : Nat} {file : List UInt8} (large : 512 ≤ capacity)
    (crowded : ¬Roomy file) :
    ∃ state next, Reachable (step capacity) (initial 0 1 file) state ∧
      step capacity state (.child 0) = some next ∧ maxWordLength ∈ stores state (.child 0) := by
  rw [Roomy, LeavesRoom] at crowded
  push Not at crowded
  obtain ⟨word, member, long⟩ := crowded
  have run : exec (step capacity) (initial 0 1 file) [.child 0, .parent 0] =
      some ⟨.reading file [], .wait, [], 0, 1, [], false⟩ := rfl
  have starts : Waiting file [] ⟨.reading file [], .wait, [], 0, 1, [], false⟩ :=
    ⟨rfl, rfl, rfl, rfl, rfl⟩
  obtain ⟨rest, state, reads, waiting, ends⟩ :=
    (reader large).completes (List.forall_mem_nil _) (Nat.zero_le _) member starts
  obtain ⟨nonempty, short⟩ := of_mem_acceptedBy member
  have full : word.length = maxWordLength := Nat.le_antisymm short long
  have positive : word.length > 0 := List.length_pos_iff.mpr nonempty
  refine ⟨state, _, (reachable_of_exec run).trans reads, childStep_reading waiting.child, ?_⟩
  rw [stores, childStores, waiting.child, ← full]
  cases rest with
  | nil => simp [positive]
  | cons ch rest => simp [ends ch rfl, positive]

/-- On which files both processes stay inside their buffers. -/
theorem storesInBounds_iff {file : List UInt8} : StoresInBounds file ↔ Roomy file := by
  constructor
  · intro inBounds
    by_contra crowded
    obtain ⟨state, next, reachable, stepped, member⟩ := exists_store (Nat.le_refl 512) crowded
    exact Nat.lt_irrefl _ (inBounds _ _ _ _ _ _ reachable stepped _ member)
  · exact Roomy.storesInBounds

end CExamples.Pipe.Reliable
