import CExamples.Number.Decimal
import CExamples.Number.Strtoimax

/-!
# Offsets on the command line

`files/lseek/main.c` and `streams/fseeko/main.c` parse their offsets with the same
functions, and print the same headers.  Every number of an `off_t` is accepted.
-/

namespace CExamples

open CExamples.Number
open CExamples.Word

/-- `sizeof(off_t)` -/
def sizeofOffT : Nat :=
  8

def getOffTMin : Except Rejection Int64 :=
  getSignedMin "Unsupported size of off_t\n" sizeofOffT

def getOffTMax : Except Rejection Int64 :=
  getSignedMax "Unsupported size of off_t\n" sizeofOffT

def offRejections : Rejections where
  parsing := .usage "Error parsing off_t."
  invalid := .usage "Invalid characters in input."
  outOfRange := .usage "off_t value out of range."

/-- `parse_off_t`, which gets the limits as arguments in `lseek` and fetches them itself in
`fseeko` -/
def parseOffT (min max : Int64) (str : Text) : Except Rejection Int64 :=
  parseSigned offRejections min max str

/-- `handle_arguments` -/
def handleOffset (filePath offset : Option Text) : Except Rejection Int64 :=
  match filePath, offset with
  | none, _ => .error (.usage "The file path is required.")
  | some _, none => .error (.usage "The offset is required.")
  | some _, some offset => do
      let min ← getOffTMin
      let max ← getOffTMax
      parseOffT min max offset

/-- What `display_file` prints in front of the file: `"%s %ld:\n\n"`. -/
def header (message : String) (offset : Int64) : List UInt8 :=
  ascii message ++ ascii " " ++ decimalInt offset.toInt ++ ascii ":\n\n"

theorem handleOffset_eq_ok_iff {filePath str : Text} {offset : Int64} :
    handleOffset (some filePath) (some str) = .ok offset ↔
      str.bytes = [] ∧ offset = 0 ∨ Denotes str.bytes offset.toInt :=
  parseSigned_unbounded_iff

/-- A header ends with a newline. -/
theorem header_eq (message : String) (offset : Int64) :
    header message offset =
      ascii message ++ ascii " " ++ decimalInt offset.toInt ++ ascii ":\n" ++ [10] := by
  rw [header, List.append_assoc _ (ascii ":\n")]
  rfl

/-- A header is a few bytes longer than its message. -/
theorem length_header_le (message : String) (offset : Int64) :
    (header message offset).length ≤ (ascii message).length + 24 := by
  have low := offset.le_toInt
  have high := offset.toInt_lt
  have digits : (decimalInt offset.toInt).length ≤ 20 := length_decimalInt_le (by omega) (by omega)
  have space : (ascii " ").length = 1 := by decide
  have ending : (ascii ":\n\n").length = 3 := by decide
  rw [header, List.length_append, List.length_append, List.length_append]
  omega

end CExamples
