import CExamples.Word.CString
import Mathlib.Data.UInt
import Mathlib.Logic.Function.Basic

/-!
# Formatted output into a buffer

`snprintf` stores as much of a text as fits in front of the terminator, and returns the
length of the whole text.  The memory from the buffer on remembers at which indices bytes
were stored.
-/

namespace CExamples.Word

/-- The bytes from a buffer on, and the indices at which bytes were stored. -/
structure Bytes where
  bytes : Nat → UInt8
  stored : List Nat

namespace Bytes

/-- `buffer[index] = byte` -/
def store (memory : Bytes) (index : Nat) (byte : UInt8) : Bytes where
  bytes := Function.update memory.bytes index byte
  stored := memory.stored ++ [index]

/-- Store a text from `index` on. -/
def storeText (memory : Bytes) (index : Nat) : List UInt8 → Bytes
  | [] => memory
  | byte :: rest => storeText (memory.store index byte) (index + 1) rest

/-- The string in a buffer of `size` bytes. -/
def string (memory : Bytes) (size : Nat) : List UInt8 :=
  cString ((List.range size).map memory.bytes)

end Bytes

/-- `snprintf(buffer, size, …)` where the format yields `text`: the memory after it, and
what it returns. -/
def snprintf (memory : Bytes) (size : UInt64) (text : List UInt8) : Bytes × Int :=
  if size = 0 then (memory, text.length)
  else (memory.storeText 0 (text.take (size.toNat - 1) ++ [0]), text.length)

namespace Bytes

/-- A text is stored at consecutive indices. -/
theorem stored_storeText (memory : Bytes) (index : Nat) (text : List UInt8) :
    (memory.storeText index text).stored = memory.stored ++ List.range' index text.length := by
  induction text generalizing memory index with
  | nil => exact (List.append_nil _).symm
  | cons byte rest ih =>
      rw [storeText, ih, List.length_cons, List.range'_succ, store, List.append_assoc,
        List.singleton_append]

/-- The bytes in front of the text stay. -/
theorem bytes_storeText_of_lt (memory : Bytes) {index before : Nat} (front : before < index)
    (text : List UInt8) : (memory.storeText index text).bytes before = memory.bytes before := by
  induction text generalizing memory index with
  | nil => rfl
  | cons byte rest ih =>
      rw [storeText, ih _ (Nat.lt_succ_of_lt front)]
      exact Function.update_of_ne (Nat.ne_of_lt front) _ _

/-- The stored text. -/
theorem bytes_storeText (memory : Bytes) (index : Nat) {text : List UInt8} {place : Nat}
    (inside : place < text.length) :
    (memory.storeText index text).bytes (index + place) = text[place] := by
  induction text generalizing memory index place with
  | nil => cases inside
  | cons byte rest ih =>
      cases place with
      | zero =>
          have first : ((memory.store index byte).storeText (index + 1) rest).bytes index =
              (memory.store index byte).bytes index :=
            bytes_storeText_of_lt _ (Nat.lt_succ_self index) rest
          have self : (memory.store index byte).bytes index = byte := Function.update_self _ _ _
          exact first.trans self
      | succ place =>
          have later := ih (memory.store index byte) (index + 1) (Nat.lt_of_succ_lt_succ inside)
          rw [Nat.add_right_comm] at later
          exact later

/-- A buffer that begins with a text and a terminator holds the text. -/
theorem string_eq {memory : Bytes} {size : Nat} {text : List UInt8} (fits : text.length < size)
    (noZero : 0 ∉ text)
    (begins : ∀ (place : Nat) (inside : place < (text ++ [0]).length),
      memory.bytes place = (text ++ [0])[place]) : memory.string size = text := by
  have front : text ++ [0] <+: (List.range size).map memory.bytes := by
    rw [List.prefix_iff_getElem?]
    intro place inside
    have below : place < size := by
      rw [List.length_append, List.length_singleton] at inside
      omega
    rw [List.getElem?_map, List.getElem?_range below, Option.map_some, begins place inside]
  rcases front with ⟨rest, whole⟩
  rw [string, ← whole, List.append_assoc, List.singleton_append, cString_append_zero,
    cString_eq_self noZero]

/-- Storing the byte that is there changes only the memory's record. -/
theorem bytes_store_self {memory : Bytes} {index : Nat} {byte : UInt8}
    (same : memory.bytes index = byte) : (memory.store index byte).bytes = memory.bytes := by
  rw [← same]
  exact Function.update_eq_self index memory.bytes

end Bytes

section Snprintf

variable {memory : Bytes} {size : UInt64} {text : List UInt8}

/-- A text that fits is stored with its terminator. -/
theorem snprintf_of_lt (memory : Bytes) (fits : text.length < size.toNat) :
    snprintf memory size text = (memory.storeText 0 (text ++ [0]), (text.length : Int)) := by
  have positive : size ≠ 0 := by
    rintro rfl
    exact absurd fits (Nat.not_lt_zero _)
  rw [snprintf, if_neg positive, List.take_of_length_le (Nat.le_sub_one_of_lt fits)]

theorem snprintf_returns (memory : Bytes) (size : UInt64) (text : List UInt8) :
    (snprintf memory size text).2 = text.length := by
  rw [snprintf]
  split <;> rfl

/-- Nothing is stored outside the buffer. -/
theorem snprintf_stores {index : Nat} (member : index ∈ (snprintf memory size text).1.stored) :
    index ∈ memory.stored ∨ index < size.toNat := by
  rw [snprintf] at member
  split at member
  · exact Or.inl member
  · rename_i positive
    have nonzero : size.toNat ≠ 0 := fun zero => positive (UInt64.toNat_inj.mp zero)
    simp only [Bytes.stored_storeText, List.mem_append, List.mem_range'_1, List.length_append,
      List.length_take, List.length_singleton] at member
    rcases member with old | new
    · exact Or.inl old
    · right
      omega

/-- A text that fits is the string in the buffer. -/
theorem snprintf_string (memory : Bytes) (fits : text.length < size.toNat) (noZero : 0 ∉ text) :
    (snprintf memory size text).1.string size.toNat = text ∧
      (snprintf memory size text).1.bytes text.length = 0 := by
  have begins (place : Nat) (inside : place < (text ++ [0]).length) :
      (memory.storeText 0 (text ++ [0])).bytes place = (text ++ [0])[place] := by
    have stored := memory.bytes_storeText 0 inside
    rwa [Nat.zero_add] at stored
  rw [snprintf_of_lt memory fits]
  constructor
  · exact Bytes.string_eq fits noZero begins
  · simp [begins text.length (by simp)]

end Snprintf

end CExamples.Word
