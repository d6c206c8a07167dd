import Mathlib.Data.List.TakeWhile

/-!
# Zero-terminated strings

The string that starts at the beginning of a buffer ends before the first zero
byte.  A token is a string that a tokenizer can return: it is not empty and has
no zero byte.
-/

namespace CExamples.Word

/-- The bytes before the first zero byte. -/
def cString (buffer : List UInt8) : List UInt8 :=
  buffer.takeWhile (· ≠ 0)

/-- A buffer without zero bytes is its own string. -/
theorem cString_eq_self {bytes : List UInt8} (noZero : 0 ∉ bytes) : cString bytes = bytes := by
  rw [cString, List.takeWhile_eq_self_iff]
  intro byte member
  simpa using ne_of_mem_of_not_mem member noZero

/-- A stored terminator ends the string, whatever follows it. -/
@[simp]
theorem cString_append_zero (bytes rest : List UInt8) :
    cString (bytes ++ 0 :: rest) = cString bytes := by
  induction bytes with
  | nil => simp [cString]
  | cons byte bytes ih =>
      by_cases zero : byte = 0
      · simp [cString, zero]
      · simpa [cString, zero] using ih

/-- A string is as long as the position of the terminator stored behind it. -/
theorem cString_set_zero {bytes text : List UInt8} {length : Nat}
    (copied : bytes.take length = text) (noZero : 0 ∉ text) (inside : length < bytes.length) :
    cString (bytes.set length 0) = text := by
  rw [List.set_eq_take_append_cons_drop, if_pos inside, cString_append_zero, copied,
    cString_eq_self noZero]

/-- The bytes of a string literal. -/
def ascii (text : String) : List UInt8 :=
  text.toList.map fun character => UInt8.ofNat character.toNat

/-- A string: the bytes before its terminator. -/
structure Text where
  bytes : List UInt8
  noZero : 0 ∉ bytes
  deriving DecidableEq

namespace Text

theorem noZero_nil : (0 : UInt8) ∉ [] :=
  List.not_mem_nil

/-- The empty string. -/
def empty : Text where
  bytes := []
  noZero := noZero_nil

/-- The string behind the first `count` bytes. -/
def drop (text : Text) (count : Nat) : Text where
  bytes := text.bytes.drop count
  noZero := fun zero => text.noZero (List.mem_of_mem_drop zero)

@[simp]
theorem bytes_empty : empty.bytes = [] :=
  rfl

@[simp]
theorem bytes_drop (text : Text) (count : Nat) : (text.drop count).bytes = text.bytes.drop count :=
  rfl

theorem drop_drop (text : Text) (first second : Nat) :
    (text.drop first).drop second = text.drop (first + second) := by
  simp only [drop, List.drop_drop]

theorem eq_empty {text : Text} (noBytes : text.bytes = []) : text = empty := by
  cases text
  cases noBytes
  rfl

/-- `*ptr` for a pointer to the string `rest` within a text. -/
def first (rest : List UInt8) : UInt8 :=
  rest.headD 0

/-- Only the terminator is a zero byte. -/
theorem first_eq_zero_iff {rest : List UInt8} (noZero : 0 ∉ rest) : first rest = 0 ↔ rest = [] := by
  cases rest with
  | nil => exact iff_of_true rfl rfl
  | cons byte rest =>
      have nonzero : byte ≠ 0 := fun zero => noZero (by rw [zero]; exact List.mem_cons_self)
      exact iff_of_false nonzero (List.cons_ne_nil byte rest)

end Text

/-- A string that `strtok_r` can return. -/
structure Token where
  bytes : List UInt8
  nonempty : bytes ≠ []
  noZero : 0 ∉ bytes
  deriving DecidableEq

namespace Token

/-- `strlen` of the token. -/
def length (token : Token) : Nat :=
  token.bytes.length

/-- The token of one letter. -/
def letter (byte : UInt8) (nonzero : byte ≠ 0) : Token where
  bytes := [byte]
  nonempty := List.cons_ne_nil _ _
  noZero := by simpa using nonzero.symm

theorem length_pos (token : Token) : 0 < token.length :=
  List.length_pos_iff.mpr token.nonempty

@[simp]
theorem cString_bytes (token : Token) : cString token.bytes = token.bytes :=
  cString_eq_self token.noZero

end Token

end CExamples.Word
