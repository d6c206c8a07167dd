import CExamples.Pipe.Reliable.Progress
import CExamples.Word.Reader

/-!
# A bad file in the reliable pipe

When a word of the file is too long the child leaves without a post.  The parent
has printed the words before it and waits for `sem_parent`, which nobody posts any
more.  On all other files the processes stop only when both have finished.
-/

namespace CExamples.Pipe.Reliable

open CExamples.Transition
open CExamples.Word

/-- Both processes have terminated. -/
def State.Terminated (state : State) : Prop :=
  (state.child = .exited ∨ state.child = .failed) ∧ state.parent = .exited

/-- A process that can move on is not stuck. -/
theorem Moves.not_stuck {capacity : Nat} {state : State} (moves : Moves capacity state) :
    ¬Stuck (step capacity) state := by
  obtain ⟨action, next, stepped, _⟩ := moves
  intro stuck
  rw [stuck action] at stepped
  cases stepped

/-- The child reads on, and the parent has printed all it was sent. -/
structure Waiting (file word : List UInt8) (state : State) : Prop where
  child : state.child = .reading file word
  parent : state.parent = .wait
  pipe : state.pipe = []
  semParent : state.semParent = 0
  semChild : state.semChild = 1

/-- The child has failed, and the parent waits for it. -/
structure Deserted (state : State) : Prop where
  child : state.child = .failed
  parent : state.parent = .wait
  semParent : state.semParent = 0

theorem Deserted.stuck {capacity : Nat} {state : State} (deserted : Deserted state) :
    Stuck (step capacity) state := by
  intro action
  cases action with
  | child count => rw [step, childStep, deserted.child]
  | parent count =>
      rw [step, parentStep, deserted.parent, deserted.semParent]
      rfl

theorem Deserted.not_terminated {state : State} (deserted : Deserted state) :
    ¬state.Terminated := by
  rintro ⟨_, exited⟩
  rw [deserted.parent] at exited
  cases exited

/-- The child sends a word and the parent prints it. -/
theorem Waiting.send {capacity : Nat} {file word : List UInt8} {ch : UInt8} {state : State}
    (waiting : Waiting (ch :: file) word state) (large : 512 ≤ capacity)
    (delimits : isDelimiter ch = true) (nonempty : word ≠ []) (fits : word.length ≤ maxWordLength) :
    ∃ later, Reachable (step capacity) state later ∧ Waiting file [] later := by
  obtain ⟨child, parent, pipe, semParent, semChild, printed, stray⟩ := state
  obtain ⟨rfl, rfl, rfl, rfl, rfl⟩ := waiting
  have positive : 0 < word.length := List.length_pos_iff.mpr nonempty
  have lengthEq := toNat_ofNat_length fits
  have nonzero := ofNat_length_ne_zero nonempty fits
  have room : 1 + word.length ≤ capacity := by
    rw [maxWordLength] at fits
    omega
  have someRoom : 0 < capacity := by omega
  have run : exec (step capacity)
      ⟨.reading (ch :: file) word, .wait, [], 0, 1, printed, stray⟩
      [.child 0, .child 1, .child word.length, .child 0, .child 0,
        .parent 0, .parent 1, .parent word.length, .parent 0, .parent 0] =
        some ⟨.reading file [], .wait, [], 0, 1,
          printed ++ [(UInt8.ofNat word.length, cString word)],
          (stray || decide (word.length ≥ maxWordLength)) ||
            decide (word.length ≥ maxWordLength)⟩ := by
    simp [exec, step, childStep, parentStep, write, read, State.hasReader, State.sendWord,
      State.terminate, push, pull, semWait, Nat.succ_le_iff, *]
  exact ⟨_, reachable_of_exec run, rfl, rfl, rfl, rfl, rfl⟩

theorem reachable_of_childStep {capacity : Nat} {state next : State}
    (stepped : childStep capacity state 0 = some next) :
    Reachable (step capacity) state next := by
  have moved : step capacity state (.child 0) = some next := stepped
  exact Reachable.single moved

/-- The child reads the file whatever its words are. -/
theorem reader {capacity : Nat} (large : 512 ≤ capacity) :
    Reader (step capacity) isDelimiter maxWordLength Waiting Deserted where
  skip := by
    rintro ch file state delimits ⟨child, parent, pipe, semParent, semChild⟩
    refine ⟨{ state with child := .reading file [] }, reachable_of_childStep ?_, rfl, parent, pipe,
      semParent, semChild⟩
    simp [childStep, child, delimits]
  send := by
    rintro ch file word state delimits nonempty _ fits waiting
    exact waiting.send large delimits nonempty fits
  collect := by
    rintro ch file word state ordinary room ⟨child, parent, pipe, semParent, semChild⟩
    refine ⟨{ state with child := .reading file (word ++ [ch]) }, reachable_of_childStep ?_, rfl,
      parent, pipe, semParent, semChild⟩
    simp [childStep, child, ordinary, room]
  refuse := by
    rintro ch file word state ordinary full _ ⟨child, parent, _, semParent, _⟩
    refine ⟨{ state with child := .failed }, reachable_of_childStep ?_, rfl, parent, semParent⟩
    simp [childStep, child, ordinary, full]

/-- A word that does not fit leaves the parent waiting. -/
theorem exists_deserted {capacity : Nat} {file : List UInt8} (large : 512 ≤ capacity)
    (tooLong : ¬Fits file) :
    ∃ state, Reachable (step capacity) (initial 0 1 file) state ∧ Deserted state := by
  have run : exec (step capacity) (initial 0 1 file) [.child 0, .parent 0] =
      some ⟨.reading file [], .wait, [], 0, 1, [], false⟩ := rfl
  have starts : Waiting file [] ⟨.reading file [], .wait, [], 0, 1, [], false⟩ :=
    ⟨rfl, rfl, rfl, rfl, rfl⟩
  have long : ∃ long ∈ wordsBy isDelimiter ([] ++ file), maxWordLength < long.length := by
    rw [Fits] at tooLong
    push Not at tooLong
    exact tooLong
  obtain ⟨state, reads, deserted⟩ := (reader large).overflows (by simp) (Nat.zero_le _) long starts
  exact ⟨state, (reachable_of_exec run).trans reads, deserted⟩

end CExamples.Pipe.Reliable
