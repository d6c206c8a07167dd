import CExamples.Word.CString
import CExamples.Word.Frame

/-!
# The client of the event-loop servers

`io-multiplexing/client.c`.  The client sends every word of its file as one
length byte followed by the bytes of the word, and gives up at a word whose
length does not fit into the byte.
-/

namespace CExamples.IoMultiplexing

open CExamples.Word

/-- The bytes that `send_word` passes to `send`. -/
def sendWord (word : List UInt8) (length : UInt8) : List UInt8 :=
  length :: if length > 0 then word.take length.toNat else []

/-- The bytes that `main` sends for the words of its file. -/
def sendWords : List Token → List UInt8
  | [] => []
  | word :: words =>
      if word.length > 255 then []
      else sendWord word.bytes (.ofNat word.length) ++ sendWords words

/-- A word that fits is sent as its frame. -/
theorem sendWord_eq_frame {word : Token} (fits : word.length ≤ 255) :
    sendWord word.bytes (.ofNat word.length) = frame byteLength word.bytes := by
  have lengthEq : (UInt8.ofNat word.length).toNat = word.length := by
    rw [UInt8.toNat_ofNat']
    omega
  have positive : UInt8.ofNat word.length > 0 := by
    rw [gt_iff_lt, UInt8.lt_iff_toNat_lt, lengthEq]
    exact word.length_pos
  rw [sendWord, if_pos positive, lengthEq, Token.length, List.take_length]
  rfl

/-- The client sends the frames of its words. -/
theorem sendWords_eq_frames {words : List Token} (fit : ∀ word ∈ words, word.length ≤ 255) :
    sendWords words = frames byteLength (words.map Token.bytes) := by
  induction words with
  | nil => rfl
  | cons word words ih =>
      have fits := fit word List.mem_cons_self
      rw [sendWords, if_neg (Nat.not_lt.mpr fits), sendWord_eq_frame fits,
        ih fun other member => fit other (List.mem_cons_of_mem word member)]
      rfl

end CExamples.IoMultiplexing
