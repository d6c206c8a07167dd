import Mathlib.Data.List.Basic

/-!
# Length-prefixed frames

A word is sent as its length followed by its elements.  The length is one
letter of the same alphabet, so a length code says which lengths have a letter.
`complete` is what a receiver can recover from a stream: the words of the frames
that are there to their last letter.  It inverts the encoding, and a truncated
encoding yields exactly the words whose frames survived the truncation.
-/

namespace CExamples.Word

universe u

/-- Letters that stand for the lengths up to `limit`. -/
structure LengthCode (β : Type u) where
  encode : Nat → β
  decode : β → Nat
  limit : Nat
  decode_encode : ∀ length, length ≤ limit → decode (encode length) = length

/-- One byte counts up to 255. -/
def byteLength : LengthCode UInt8 where
  encode := UInt8.ofNat
  decode := UInt8.toNat
  limit := 255
  decode_encode length bound := by
    simp only [UInt8.toNat_ofNat']
    omega

/-- The length byte of a word that is short enough. -/
theorem toNat_ofNat_length {β : Type u} {word : List β} (short : word.length ≤ 255) :
    (UInt8.ofNat word.length).toNat = word.length :=
  byteLength.decode_encode word.length short

theorem ofNat_length_ne_zero {β : Type u} {word : List β} (nonempty : word ≠ [])
    (short : word.length ≤ 255) : UInt8.ofNat word.length ≠ 0 := by
  intro zero
  have lengthEq := toNat_ofNat_length short
  rw [zero] at lengthEq
  exact nonempty (List.length_eq_zero_iff.mp lengthEq.symm)

/-- Every byte is the length it stands for. -/
theorem byteLength_encode_decode (letter : UInt8) :
    byteLength.encode (byteLength.decode letter) = letter :=
  UInt8.ofNat_toNat

variable {β : Type u} (code : LengthCode β)

/-- The frame of one word. -/
def frame (word : List β) : List β :=
  code.encode word.length :: word

/-- The frames of a list of words, one after the other. -/
def frames (words : List (List β)) : List β :=
  words.flatMap (frame code)

/-- The words of the complete frames at the beginning of a stream. -/
def complete : List β → List (List β)
  | [] => []
  | letter :: stream =>
      if code.decode letter ≤ stream.length then
        stream.take (code.decode letter) :: complete (stream.drop (code.decode letter))
      else
        []
  termination_by stream => stream.length
  decreasing_by simp only [List.length_drop, List.length_cons]; omega

/-- The words whose frames lie within the first `length` letters. -/
def arrived : List (List β) → Nat → List (List β)
  | [], _ => []
  | word :: words, length =>
      if word.length + 1 ≤ length then word :: arrived words (length - (word.length + 1)) else []

@[simp]
theorem length_frame (word : List β) : (frame code word).length = word.length + 1 :=
  rfl

@[simp]
theorem frames_nil : frames code [] = [] :=
  rfl

@[simp]
theorem frames_cons (word : List β) (words : List (List β)) :
    frames code (word :: words) = frame code word ++ frames code words :=
  rfl

@[simp]
theorem frames_append (first second : List (List β)) :
    frames code (first ++ second) = frames code first ++ frames code second := by
  simp [frames]

/-- A suffix of the words has a suffix of the frames. -/
theorem length_frames_le_of_suffix {first second : List (List β)} (suffix : first <:+ second) :
    (frames code first).length ≤ (frames code second).length := by
  obtain ⟨before, rfl⟩ := suffix
  rw [frames_append, List.length_append]
  exact Nat.le_add_left _ _

/-- Short words have short frames. -/
theorem length_frames_le {words : List (List β)} {bound : Nat}
    (short : ∀ word ∈ words, word.length ≤ bound) :
    (frames code words).length ≤ words.length * (bound + 1) := by
  induction words with
  | nil => simp
  | cons word words ih =>
      have fits := short word List.mem_cons_self
      have rest := ih fun other member => short other (List.mem_cons_of_mem word member)
      rw [frames_cons, List.length_append, length_frame, List.length_cons, Nat.succ_mul]
      omega

@[simp]
theorem complete_nil : complete code [] = [] := by
  simp [complete]

/-- A letter followed by as many letters as it announces is a complete frame. -/
theorem complete_cons_append {letter : β} {payload stream : List β}
    (announced : payload.length = code.decode letter) :
    complete code (letter :: (payload ++ stream)) = payload :: complete code stream := by
  rw [complete, if_pos (by rw [List.length_append]; omega), ← announced,
    List.take_left, List.drop_left]

/-- A letter followed by fewer letters than it announces yields nothing. -/
theorem complete_cons_of_lt {letter : β} {payload : List β}
    (missing : payload.length < code.decode letter) :
    complete code (letter :: payload) = [] := by
  rw [complete, if_neg (by omega)]

theorem complete_frame_append {word : List β} (bound : word.length ≤ code.limit)
    (stream : List β) :
    complete code (frame code word ++ stream) = word :: complete code stream :=
  complete_cons_append code (code.decode_encode word.length bound).symm

/-- The encoding of short words decodes to them. -/
theorem complete_frames {words : List (List β)}
    (bounds : ∀ word ∈ words, word.length ≤ code.limit) :
    complete code (frames code words) = words := by
  induction words with
  | nil => rw [frames_nil, complete_nil]
  | cons word words ih =>
      have bound := bounds word List.mem_cons_self
      have rest := ih fun other member => bounds other (List.mem_cons_of_mem word member)
      rw [frames_cons, complete_frame_append code bound, rest]

/-- A stream is the frames of its complete words and the beginning of one more. -/
theorem exists_unfinished (faithful : ∀ letter, code.encode (code.decode letter) = letter)
    (stream : List β) :
    ∃ rest, stream = frames code (complete code stream) ++ rest ∧ complete code rest = [] := by
  induction stream using complete.induct code with
  | case1 => exact ⟨[], by simp⟩
  | case2 letter stream fits ih =>
      obtain ⟨rest, split, unfinished⟩ := ih
      refine ⟨rest, ?_, unfinished⟩
      have lengthEq : (stream.take (code.decode letter)).length = code.decode letter := by
        rw [List.length_take]
        omega
      rw [complete, if_pos fits, frames_cons, frame, lengthEq, faithful, List.cons_append,
        List.cons_append, List.append_assoc, ← split, List.take_append_drop]
  | case3 letter stream missing =>
      have none : complete code (letter :: stream) = [] := by
        rw [complete, if_neg missing]
      exact ⟨letter :: stream, by simp [none], none⟩

/-- A truncated encoding decodes to the words whose frames arrived. -/
theorem complete_take_frames {words : List (List β)}
    (bounds : ∀ word ∈ words, word.length ≤ code.limit) (length : Nat) :
    complete code ((frames code words).take length) = arrived words length := by
  induction words generalizing length with
  | nil => simp [arrived]
  | cons word words ih =>
      have bound := bounds word List.mem_cons_self
      have rest := ih fun other member => bounds other (List.mem_cons_of_mem word member)
      rw [frames_cons, List.take_append, length_frame, arrived]
      by_cases fits : word.length + 1 ≤ length
      · rw [if_pos fits, List.take_of_length_le (by simpa using fits),
          complete_frame_append code bound, rest]
      · rw [if_neg fits, Nat.sub_eq_zero_of_le (by omega), List.take_zero, List.append_nil]
        cases length with
        | zero => simp
        | succ length =>
            apply complete_cons_of_lt
            rw [List.length_take, code.decode_encode _ bound]
            omega

/-- The words that arrived are the first words sent. -/
theorem arrived_isPrefix (words : List (List β)) (length : Nat) :
    arrived words length <+: words := by
  induction words generalizing length with
  | nil => exact List.nil_prefix
  | cons word words ih =>
      rw [arrived]
      split
      · exact List.cons_prefix_cons.mpr ⟨rfl, ih _⟩
      · exact List.nil_prefix

/-- The frames of the words that arrived lie within the letters that did. -/
theorem frames_arrived_isPrefix (words : List (List β)) (length : Nat) :
    frames code (arrived words length) <+: (frames code words).take length := by
  induction words generalizing length with
  | nil => exact List.nil_prefix
  | cons word words ih =>
      rw [arrived]
      split
      · rename_i fits
        rw [frames_cons, frames_cons, List.take_append, length_frame,
          List.take_of_length_le (by rwa [length_frame])]
        exact (List.prefix_append_right_inj _).mpr (ih _)
      · exact List.nil_prefix

end CExamples.Word
