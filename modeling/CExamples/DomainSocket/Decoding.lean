import CExamples.DomainSocket.Core
import Mathlib.Algebra.GroupWithZero.Nat

/-!
# What the domain-socket servers decode

Every printed line uses up at most its length byte and as many bytes as it
announces.  Lines that announce the lengths of the words therefore use up no more
than the frames of these words, and when a read came back short or the stream ends
inside a frame there is more to use up.  So the lines are those of the complete
frames exactly when the stream ends with a whole frame and the read for each word
gets all of it.
-/

namespace CExamples.DomainSocket

open CExamples.Word

/-- The words fit into their frames. -/
def Fit (words : List (List UInt8)) : Prop :=
  ∀ word ∈ words, word.length ≤ 255

theorem Fit.tail {word : List UInt8} {words : List (List UInt8)} (fit : Fit (word :: words)) :
    Fit words :=
  fun other member => fit other (List.mem_cons_of_mem word member)

/-- The client sends the frames of its words. -/
theorem sendWords_eq_frames {words : List (List UInt8)} (fit : Fit words) :
    sendWords words = frames byteLength words := by
  induction words with
  | nil => rfl
  | cons word words ih =>
      have fits := fit word List.mem_cons_self
      rw [sendWords, if_neg (Nat.not_lt.mpr fits), ih fit.tail]
      rfl

/-! ## One round -/

@[simp]
theorem handleConnection_nil (offers : Nat → Nat) (word : List UInt8) :
    handleConnection ⟨[], offers⟩ word = [] := by
  rw [handleConnection]
  split
  · rfl
  · rename_i got
    simp [Socket.read] at got

/-- How many bytes the read of a word gets at most. -/
def offered (offers : Nat → Nat) (size : UInt8) : Nat :=
  min (max 1 (offers 1)) size.toNat

theorem handleConnection_cons (size : UInt8) (stream : List UInt8) (offers : Nat → Nat)
    (word : List UInt8) :
    handleConnection ⟨size :: stream, offers⟩ word =
      (size, cString (terminated word (stream.take (offered offers size)) size)) ::
        handleConnection ⟨stream.drop (offered offers size), fun call => offers (call + 2)⟩
          (terminated word (stream.take (offered offers size)) size) := by
  have lengthEq : min (max 1 (offers 0)) 1 = 1 := by omega
  rw [handleConnection]
  split
  · rename_i got
    simp [Socket.read] at got
  · rename_i got
    simp only [Socket.read, lengthEq, List.take_succ_cons, List.take_zero, Prod.mk.injEq,
      List.cons.injEq] at got
    obtain ⟨⟨rfl, rfl⟩, rfl⟩ := got
    rfl

/-- The bytes that a line announces, with its length byte. -/
def announced (lines : List Line) : Nat :=
  (lines.map fun line => line.1.toNat + 1).sum

/-- The lines use up the stream. -/
theorem length_le_announced (socket : Socket) (word : List UInt8) :
    socket.stream.length ≤ announced (handleConnection socket word) := by
  obtain ⟨stream, offers⟩ := socket
  induction lengthEq : stream.length using Nat.strongRecOn generalizing stream offers word with
  | ind length ih =>
      cases stream with
      | nil =>
          subst lengthEq
          exact Nat.zero_le _
      | cons size stream =>
          have shorter : (stream.drop (offered offers size)).length < length := by
            rw [← lengthEq, List.length_drop, List.length_cons]
            omega
          have rest := ih _ shorter
            (terminated word (stream.take (offered offers size)) size)
            (stream.drop (offered offers size)) (fun call => offers (call + 2)) rfl
          have atMost : offered offers size ≤ size.toNat := Nat.min_le_right _ _
          rw [handleConnection_cons]
          simp only [announced, List.map_cons, List.sum_cons, List.length_drop,
            List.length_cons] at rest lengthEq ⊢
          omega

/-- The lines of words that fit announce their frames. -/
theorem announced_lines {words : List (List UInt8)} (fit : Fit words) :
    announced (words.map line) = (frames byteLength words).length := by
  induction words with
  | nil => rfl
  | cons word words ih =>
      have lengthEq : (UInt8.ofNat word.length).toNat = word.length :=
        toNat_ofNat_length (fit word List.mem_cons_self)
      have rest := ih fit.tail
      simp only [announced, List.map_cons, List.sum_cons, line] at rest ⊢
      rw [rest, lengthEq, frames_cons, List.length_append, length_frame]

/-! ## Which streams are decoded -/

/-- The first `cut` bytes of the stream end with a whole frame, and the read for each
word in them gets the whole word.  Every frame takes two calls. -/
def Undivided (words : List (List UInt8)) (cut : Nat) (offers : Nat → Nat) : Prop :=
  ∃ count, (sendWords words).take cut = sendWords (words.take count) ∧
    ∀ index word, (words.take count)[index]? = some word →
      word.length ≤ max 1 (offers (2 * index + 1))

theorem undivided_nil (cut : Nat) (offers : Nat → Nat) : Undivided [] cut offers :=
  ⟨0, by simp [sendWords], by simp⟩

/-- A stream is undivided when it is empty or goes on undivided after a first
frame. -/
theorem undivided_cons_iff {word : List UInt8} {words : List (List UInt8)} {cut : Nat}
    {offers : Nat → Nat} (fit : Fit (word :: words)) :
    Undivided (word :: words) cut offers ↔
      cut = 0 ∨ (word.length + 1 ≤ cut ∧ word.length ≤ max 1 (offers 1) ∧
        Undivided words (cut - (word.length + 1)) fun call => offers (call + 2)) := by
  have split : sendWords (word :: words) = frame byteLength word ++ sendWords words := by
    rw [sendWords_eq_frames fit, sendWords_eq_frames fit.tail, frames_cons]
  have splitFirst (count : Nat) : sendWords ((word :: words).take (count + 1)) =
      frame byteLength word ++ sendWords (words.take count) := by
    rw [List.take_succ_cons, sendWords, if_neg (Nat.not_lt.mpr (fit word List.mem_cons_self))]
    rfl
  constructor
  · rintro ⟨count, whole, reads⟩
    cases count with
    | zero =>
        left
        rw [List.take_zero, sendWords, split, frame] at whole
        simpa using whole
    | succ count =>
        right
        rw [splitFirst, split, List.take_append, length_frame] at whole
        have longEnough : word.length + 1 ≤ cut := by
          by_contra short
          have lengths := congrArg List.length whole
          rw [Nat.sub_eq_zero_of_le (by omega), List.take_zero, List.append_nil,
            List.length_take, List.length_append, length_frame] at lengths
          omega
        rw [List.take_of_length_le (by rwa [length_frame])] at whole
        refine ⟨longEnough, reads 0 word (by simp), count, List.append_cancel_left whole, ?_⟩
        intro index other member
        exact reads (index + 1) other (by simpa using member)
  · rintro (rfl | ⟨longEnough, read, count, whole, reads⟩)
    · exact ⟨0, by simp [sendWords], by simp⟩
    · refine ⟨count + 1, ?_, ?_⟩
      · rw [splitFirst, split, List.take_append, length_frame, whole,
          List.take_of_length_le (by rwa [length_frame])]
      · intro index other member
        cases index with
        | zero =>
            rw [List.take_succ_cons, List.getElem?_cons_zero, Option.some.injEq] at member
            rwa [← member]
        | succ index => exact reads index other (by simpa using member)

/-- The string stored by a whole read is the word. -/
theorem cString_terminated {word buffer : List UInt8} {size : UInt8}
    (whole : word.length = size.toNat) : cString (terminated buffer word size) = cString word := by
  rw [terminated, ← whole]
  cases rest : buffer.drop word.length with
  | nil => rw [List.append_nil, List.set_eq_of_length_le (Nat.le_refl _)]
  | cons byte rest => simp

/-- After a short read more is left than the frames of the following words. -/
theorem lines_ne_of_short {words : List (List UInt8)} (fit : Fit words) {length : Nat}
    {rest : List UInt8} (more : ((sendWords words).take length).length < rest.length)
    (offers : Nat → Nat) (buffer : List UInt8) :
    handleConnection ⟨rest, offers⟩ buffer ≠ (arrived words length).map line := by
  intro same
  have usedUp := length_le_announced ⟨rest, offers⟩ buffer
  have arrivedFit : Fit (arrived words length) := fun word member =>
    fit word ((arrived_isPrefix words length).subset member)
  have atMost := (frames_arrived_isPrefix byteLength words length).length_le
  rw [same, announced_lines arrivedFit] at usedUp
  rw [sendWords_eq_frames fit] at more
  simp only at usedUp
  omega

/-- The servers print exactly the words whose frames are complete, if and only if the
stream is undivided. -/
theorem handleConnection_eq_arrived_iff {words : List (List UInt8)} (fit : Fit words)
    (cut : Nat) (offers : Nat → Nat) (buffer : List UInt8) :
    handleConnection ⟨(sendWords words).take cut, offers⟩ buffer = (arrived words cut).map line ↔
      Undivided words cut offers := by
  induction words generalizing cut offers buffer with
  | nil => simp [sendWords, arrived, undivided_nil]
  | cons word words ih =>
      rw [undivided_cons_iff fit]
      have fits := fit word List.mem_cons_self
      have sizeEq : (UInt8.ofNat word.length).toNat = word.length :=
        toNat_ofNat_length fits
      cases cut with
      | zero => simp [arrived]
      | succ cut =>
          rw [sendWords, if_neg (Nat.not_lt.mpr fits), List.take_succ_cons, handleConnection_cons,
            arrived]
          by_cases complete : word.length + 1 ≤ cut + 1
          · have streamEq : (word ++ sendWords words).take cut =
                word ++ (sendWords words).take (cut - word.length) := by
              rw [List.take_append, List.take_of_length_le (by omega)]
            rw [if_pos complete, List.map_cons, streamEq, Nat.add_sub_add_right]
            by_cases whole : word.length ≤ max 1 (offers 1)
            · have offeredEq : offered offers (UInt8.ofNat word.length) = word.length := by
                rw [offered, sizeEq]
                exact Nat.min_eq_right whole
              have rest := ih fit.tail (cut - word.length) (fun call => offers (call + 2))
                (terminated buffer word (UInt8.ofNat word.length))
              rw [offeredEq, List.take_left, List.drop_left, cString_terminated sizeEq.symm]
              simp [line, complete, whole, rest]
            · have short : offered offers (UInt8.ofNat word.length) < word.length := by
                rw [offered, sizeEq]
                omega
              constructor
              · intro same
                refine absurd (List.cons_eq_cons.mp same).2 (lines_ne_of_short fit.tail ?_ _ _)
                rw [List.length_drop, List.length_append]
                omega
              · rintro (zero | ⟨_, read, _⟩)
                · cases zero
                · exact absurd read whole
          · rw [if_neg complete]
            constructor
            · intro none
              cases none
            · rintro (zero | ⟨longEnough, _⟩)
              · cases zero
              · exact absurd longEnough complete

theorem wholeRead_decodes :
    handleConnection ⟨(sendWords [[97, 98]]).take 3, fun _ => 2⟩ [] =
      (arrived [[97, 98]] 3).map line := by
  have fit : Fit [[97, 98]] := by
    rw [Fit]
    decide
  have whole : ∀ (index : Nat) (word : List UInt8),
      ([[97, 98]] : List (List UInt8))[index]? = some word → word.length ≤ max 1 2 := by
    intro index word member
    cases index with
    | zero => cases member; decide
    | succ index => cases member
  exact (handleConnection_eq_arrived_iff fit 3 _ []).mpr ⟨1, rfl, whole⟩

/-- The second letter of a word that comes alone is taken for a length. -/
theorem shortRead_misreads :
    handleConnection ⟨(sendWords [[97, 98]]).take 3, fun _ => 1⟩ [] ≠
      (arrived [[97, 98]] 3).map line := by
  have stream : (sendWords [[97, 98]]).take 3 = [2, 97, 98] := rfl
  have words : (arrived [[97, 98]] 3).map line = [(2, [97, 98])] := by decide
  rw [stream, handleConnection_cons, words]
  intro same
  exact absurd (List.cons_eq_cons.mp same).1 (by decide)

end CExamples.DomainSocket
