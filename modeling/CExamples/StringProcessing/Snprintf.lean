import CExamples.Number.Decimal
import CExamples.Word.Snprintf

/-!
# Integers as text

`string-processing/snprintf/main.c`.  Each converter prints a label and an integer into a
buffer, compares the length that `snprintf` returns with the size of the buffer, and
prints an `E` instead of a text that was cut off.  The converters differ in the type of
the integer, the label and the conversion.
-/

namespace CExamples.StringProcessing.Snprintf

open CExamples.Number
open CExamples.Word

/-- The body of the converters: `format` is what stands in front of the integer. -/
def convert (format : String) (value : Int) (memory : Bytes) (bufferSize : UInt64) : Bytes :=
  let printed := snprintf memory bufferSize (ascii format ++ decimalInt value)
  let result := printed.2
  if result ≥ 0 ∧ UInt64.ofNat result.toNat < bufferSize then
    printed.1.store result.toNat 0
  else (snprintf printed.1 bufferSize (ascii "E")).1

def convertInt8 (value : Int8) : Bytes → UInt64 → Bytes :=
  convert "int8_t: " value.toInt

def convertUInt8 (value : UInt8) : Bytes → UInt64 → Bytes :=
  convert "uint8_t: " value.toNat

def convertInt16 (value : Int16) : Bytes → UInt64 → Bytes :=
  convert "int16_t: " value.toInt

def convertUInt16 (value : UInt16) : Bytes → UInt64 → Bytes :=
  convert "uint16_t: " value.toNat

def convertInt32 (value : Int32) : Bytes → UInt64 → Bytes :=
  convert "int32_t: " value.toInt

def convertUInt32 (value : UInt32) : Bytes → UInt64 → Bytes :=
  convert "uint32_t: " value.toNat

def convertInt (value : Int32) : Bytes → UInt64 → Bytes :=
  convert "int: " value.toInt

def convertUInt (value : UInt32) : Bytes → UInt64 → Bytes :=
  convert "uint: " value.toNat

def convertLong (value : Int64) : Bytes → UInt64 → Bytes :=
  convert "long: " value.toInt

def convertULong (value : UInt64) : Bytes → UInt64 → Bytes :=
  convert "ulong: " value.toNat

def convertLongLong (value : Int64) : Bytes → UInt64 → Bytes :=
  convert "long long: " value.toInt

def convertULongLong (value : UInt64) : Bytes → UInt64 → Bytes :=
  convert "ulonglong: " value.toNat

def convertSize (value : UInt64) : Bytes → UInt64 → Bytes :=
  convert "size_t: " value.toNat

def convertSSize (value : Int64) : Bytes → UInt64 → Bytes :=
  convert "ssize_t: " value.toInt

/-- An `off_t` has 64 bits, so the cast to `int64_t` does nothing. -/
def convertOff (value : Int64) : Bytes → UInt64 → Bytes :=
  convert "off_t: " value.toInt

/-- `(intmax_t)value` of a `pid_t` -/
def convertPid (value : Int32) : Bytes → UInt64 → Bytes :=
  convert "pid_t: " value.toInt64.toInt

/-- `(intmax_t)value` of a `uid_t` -/
def convertUid (value : UInt32) : Bytes → UInt64 → Bytes :=
  convert "uid_t: " value.toUInt64.toInt64.toInt

/-- `(intmax_t)value` of a `gid_t` -/
def convertGid (value : UInt32) : Bytes → UInt64 → Bytes :=
  convert "gid_t: " value.toUInt64.toInt64.toInt

/-- A converter and its argument. -/
inductive Conversion
  | int8 (value : Int8)
  | uint8 (value : UInt8)
  | int16 (value : Int16)
  | uint16 (value : UInt16)
  | int32 (value : Int32)
  | uint32 (value : UInt32)
  | int (value : Int32)
  | uint (value : UInt32)
  | long (value : Int64)
  | ulong (value : UInt64)
  | longLong (value : Int64)
  | ulongLong (value : UInt64)
  | size (value : UInt64)
  | ssize (value : Int64)
  | off (value : Int64)
  | pid (value : Int32)
  | uid (value : UInt32)
  | gid (value : UInt32)
  deriving DecidableEq

namespace Conversion

/-- The call of the converter. -/
def run : Conversion → Bytes → UInt64 → Bytes
  | int8 value => convertInt8 value
  | uint8 value => convertUInt8 value
  | int16 value => convertInt16 value
  | uint16 value => convertUInt16 value
  | int32 value => convertInt32 value
  | uint32 value => convertUInt32 value
  | int value => convertInt value
  | uint value => convertUInt value
  | long value => convertLong value
  | ulong value => convertULong value
  | longLong value => convertLongLong value
  | ulongLong value => convertULongLong value
  | size value => convertSize value
  | ssize value => convertSSize value
  | off value => convertOff value
  | pid value => convertPid value
  | uid value => convertUid value
  | gid value => convertGid value

/-- The label of the type. -/
def label : Conversion → String
  | int8 _ => "int8_t"
  | uint8 _ => "uint8_t"
  | int16 _ => "int16_t"
  | uint16 _ => "uint16_t"
  | int32 _ => "int32_t"
  | uint32 _ => "uint32_t"
  | int _ => "int"
  | uint _ => "uint"
  | long _ => "long"
  | ulong _ => "ulong"
  | longLong _ => "long long"
  | ulongLong _ => "ulonglong"
  | size _ => "size_t"
  | ssize _ => "ssize_t"
  | off _ => "off_t"
  | pid _ => "pid_t"
  | uid _ => "uid_t"
  | gid _ => "gid_t"

/-- The integer to be shown. -/
def value : Conversion → Int
  | int8 value => value.toInt
  | uint8 value => value.toNat
  | int16 value => value.toInt
  | uint16 value => value.toNat
  | int32 value => value.toInt
  | uint32 value => value.toNat
  | int value => value.toInt
  | uint value => value.toNat
  | long value => value.toInt
  | ulong value => value.toNat
  | longLong value => value.toInt
  | ulongLong value => value.toNat
  | size value => value.toNat
  | ssize value => value.toInt
  | off value => value.toInt
  | pid value => value.toInt
  | uid value => value.toNat
  | gid value => value.toNat

/-- The label and the numeral. -/
def complete (conversion : Conversion) : List UInt8 :=
  ascii conversion.label ++ ascii ": " ++ decimalInt conversion.value

end Conversion

/-- The buffer holds the complete text with a numeral for the value, or an `E` if that text
does not fit, and nothing is stored outside the buffer. -/
structure Shows (complete : List UInt8) (bufferSize : UInt64) (before after : Bytes) : Prop where
  terminated : ∃ index < bufferSize.toNat, after.bytes index = 0
  inside : ∀ index ∈ after.stored, index ∈ before.stored ∨ index < bufferSize.toNat
  text : after.string bufferSize.toNat = complete ∨ after.string bufferSize.toNat = ascii "E"
  cut : after.string bufferSize.toNat = ascii "E" ↔ bufferSize.toNat ≤ complete.length

/-! ## The common body -/

section Convert

variable {format : String} {value : Int} {bufferSize : UInt64}

/-- The comparison with the size of the buffer is exact. -/
theorem shown_iff {text : List UInt8} (short : text.length < 2 ^ 64) :
    ((text.length : Int) ≥ 0 ∧ UInt64.ofNat text.length < bufferSize) ↔
      text.length < bufferSize.toNat := by
  rw [UInt64.lt_iff_toNat_lt, UInt64.toNat_ofNat_of_lt' short]
  exact and_iff_right (Int.natCast_nonneg _)

/-- A text that fits is shown, and the second terminator changes nothing. -/
theorem shows_text {text : List UInt8} (memory : Bytes) (fits : text.length < bufferSize.toNat)
    (noZero : 0 ∉ text) (notE : text ≠ ascii "E") :
    Shows text bufferSize memory ((snprintf memory bufferSize text).1.store text.length 0) := by
  have stringEq := snprintf_string memory fits noZero
  have same := Bytes.bytes_store_self stringEq.2
  have shown : ((snprintf memory bufferSize text).1.store text.length 0).string bufferSize.toNat =
      text := by
    rw [Bytes.string, same]
    exact stringEq.1
  constructor
  · refine ⟨text.length, fits, ?_⟩
    rw [same]
    exact stringEq.2
  · intro index member
    rcases List.mem_append.mp member with printed | last
    · exact snprintf_stores printed
    · rw [List.mem_singleton.mp last]
      exact Or.inr fits
  · exact Or.inl shown
  · rw [shown]
    exact iff_of_false notE (Nat.not_le.mpr fits)

/-- An `E` behind a text that was cut off. -/
theorem shows_E {text : List UInt8} (memory : Bytes) (cut : bufferSize.toNat ≤ text.length)
    (room : 2 ≤ bufferSize.toNat) :
    Shows text bufferSize memory
      (snprintf (snprintf memory bufferSize text).1 bufferSize (ascii "E")).1 := by
  have fits : (ascii "E").length < bufferSize.toNat := room
  have stringEq := snprintf_string (snprintf memory bufferSize text).1 fits (by decide)
  constructor
  · exact ⟨_, fits, stringEq.2⟩
  · intro index member
    rcases snprintf_stores member with printed | inside
    · exact snprintf_stores printed
    · exact Or.inr inside
  · exact Or.inr stringEq.1
  · exact iff_of_true stringEq.1 cut

/-- The body shows its text, if the text has no terminator and at least two bytes. -/
theorem convert_shows {text : List UInt8} (textEq : text = ascii format ++ decimalInt value)
    (noZero : 0 ∉ text) (long : 2 ≤ text.length) (short : text.length < 2 ^ 64)
    (room : 2 ≤ bufferSize.toNat) (memory : Bytes) :
    Shows text bufferSize memory (convert format value memory bufferSize) := by
  have notE : text ≠ ascii "E" := by
    intro single
    rw [single] at long
    exact absurd long (by decide)
  have returned := snprintf_returns memory bufferSize text
  rw [convert, ← textEq]
  simp only [returned, Int.toNat_natCast, shown_iff short]
  split
  · rename_i fits
    exact shows_text memory fits noZero notE
  · rename_i cut
    exact shows_E memory (Nat.not_lt.mp cut) room

end Convert

/-! ## The converters -/

theorem ascii_append (first second : String) :
    ascii (first ++ second) = ascii first ++ ascii second := by
  simp [ascii]

/-- The cast of an id to `intmax_t` keeps it. -/
theorem toInt_toInt64_toUInt64 (value : UInt32) :
    value.toUInt64.toInt64.toInt = value.toNat := by
  have small : value.toNat < 4294967296 := value.toNat_lt
  have wide : value.toUInt64.toNat = value.toNat := UInt32.toNat_toUInt64 value
  have bits : value.toUInt64.toInt64.toInt = value.toUInt64.toBitVec.toInt := rfl
  rw [bits, BitVec.toInt_eq_toNat_of_lt, UInt64.toNat_toBitVec, wide]
  rw [UInt64.toNat_toBitVec, wide]
  omega

namespace Conversion

variable (conversion : Conversion)

/-- Every converter is the common body with its label and the integer it was given. -/
theorem run_eq : conversion.run = convert (conversion.label ++ ": ") conversion.value := by
  cases conversion with
  | pid value => rw [run, convertPid, Int32.toInt_toInt64]; rfl
  | uid value => rw [run, convertUid, toInt_toInt64_toUInt64]; rfl
  | gid value => rw [run, convertGid, toInt_toInt64_toUInt64]; rfl
  | _ => rfl

/-- Every value has at most 64 bits. -/
theorem value_bounds :
    -9223372036854775808 ≤ conversion.value ∧ conversion.value < 18446744073709551616 := by
  cases conversion with
  | int8 value | int16 value | int32 value | int value | long value | longLong value | ssize value
  | off value | pid value =>
      constructor
      · exact Int.le_trans (by decide) value.le_toInt
      · exact Int.lt_trans value.toInt_lt (by decide)
  | uint8 value | uint16 value | uint32 value | uint value | ulong value | ulongLong value
  | size value | uid value | gid value =>
      constructor
      · exact Int.le_trans (by decide) (Int.natCast_nonneg value.toNat)
      · exact Int.lt_of_lt_of_le (Int.ofNat_lt.mpr value.toNat_lt) (by decide)

/-- A label has at most nine bytes, and none is zero. -/
theorem label_bytes :
    (ascii conversion.label).length ≤ 9 ∧ 0 ∉ ascii conversion.label := by
  cases conversion <;> simp only [label] <;> exact ⟨by decide, by decide⟩

theorem complete_bytes :
    2 ≤ conversion.complete.length ∧ conversion.complete.length ≤ 31 ∧
      0 ∉ conversion.complete := by
  have label := conversion.label_bytes
  have bounds := conversion.value_bounds
  have separator : (ascii ": ").length = 2 := by decide
  have digits : (decimalInt conversion.value).length ≤ 20 :=
    length_decimalInt_le (by omega) (by omega)
  rw [complete, List.length_append, List.length_append]
  refine ⟨by omega, by omega, ?_⟩
  rw [List.mem_append, List.mem_append, not_or, not_or]
  exact ⟨⟨label.2, by decide⟩, zero_not_mem_decimalInt conversion.value⟩

end Conversion

/-- For every converter, every value of its type and every buffer of at least two bytes the
buffer shows the label and a numeral for the value, or an `E` if that text does not fit. -/
theorem conversion_shows (conversion : Conversion) {bufferSize : UInt64}
    (room : 2 ≤ bufferSize) (memory : Bytes) :
    Shows conversion.complete bufferSize memory (conversion.run memory bufferSize) ∧
      conversion.complete = ascii conversion.label ++ ascii ": " ++ decimalInt conversion.value ∧
      Denotes (decimalInt conversion.value) conversion.value := by
  have complete := conversion.complete_bytes
  have textEq : conversion.complete =
      ascii (conversion.label ++ ": ") ++ decimalInt conversion.value := by
    rw [ascii_append]
    rfl
  refine ⟨?_, rfl, denotes_decimalInt conversion.value⟩
  rw [conversion.run_eq]
  exact convert_shows textEq complete.2.2 complete.1 (by omega)
    (UInt64.le_iff_toNat_le.mp room) memory

/-- Into two bytes an `int` is not shown. -/
theorem two_bytes_show_E :
    Shows (Conversion.int 2147483647).complete 2 ⟨fun _ => 0, []⟩
      ((Conversion.int 2147483647).run ⟨fun _ => 0, []⟩ 2) :=
  (conversion_shows (.int 2147483647) (by decide) ⟨fun _ => 0, []⟩).1

end CExamples.StringProcessing.Snprintf
