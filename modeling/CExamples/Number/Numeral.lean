import CExamples.Word.CString

/-!
# Decimal numerals

A numeral is optional white space, an optional sign and at least one decimal digit.
It denotes an integer without any bound.  A text is scanned from the left: white
space, then the sign, then as many digits as there are; the scan of a numeral ends
at the end of the text, and what a text denotes is therefore unique.
-/

namespace CExamples.Number

/-- `isspace` in the C locale. -/
def isSpace (byte : UInt8) : Bool :=
  byte == 32 || 9 ≤ byte && byte ≤ 13

/-- `isdigit` -/
def isDigit (byte : UInt8) : Bool :=
  48 ≤ byte && byte ≤ 57

/-- The number that a string of digits denotes. -/
def magnitude (digits : List UInt8) : Nat :=
  digits.foldl (fun value digit => 10 * value + (digit.toNat - 48)) 0

inductive Sign
  | none
  | plus
  | minus
  deriving DecidableEq, Repr

namespace Sign

def bytes : Sign → List UInt8
  | none => []
  | plus => [43]
  | minus => [45]

/-- The integer with this sign. -/
def apply : Sign → Nat → Int
  | minus, magnitude => -magnitude
  | _, magnitude => magnitude

end Sign

/-- A decimal numeral. -/
structure Numeral where
  space : List UInt8
  sign : Sign
  digits : List UInt8
  isSpace : ∀ byte ∈ space, isSpace byte = true
  isDigit : ∀ byte ∈ digits, isDigit byte = true
  nonempty : digits ≠ []

namespace Numeral

def bytes (numeral : Numeral) : List UInt8 :=
  numeral.space ++ numeral.sign.bytes ++ numeral.digits

def value (numeral : Numeral) : Int :=
  numeral.sign.apply (magnitude numeral.digits)

end Numeral

/-- The bytes are a numeral for `value`. -/
def Denotes (bytes : List UInt8) (value : Int) : Prop :=
  ∃ numeral : Numeral, numeral.bytes = bytes ∧ numeral.value = value

/-! ## Scanning -/

/-- The sign at the beginning of a string, and the string behind it. -/
def scanSign : List UInt8 → Sign × List UInt8
  | [] => (.none, [])
  | byte :: rest =>
      if byte = 43 then (.plus, rest)
      else if byte = 45 then (.minus, rest)
      else (.none, byte :: rest)

/-- The parts of a string: the sign behind the white space, the digits behind the sign,
and the string behind the digits. -/
structure Scan where
  sign : Sign
  digits : List UInt8
  rest : List UInt8
  deriving DecidableEq, Repr

def scan (bytes : List UInt8) : Scan :=
  let signed := scanSign (bytes.dropWhile isSpace)
  { sign := signed.1
    digits := signed.2.takeWhile isDigit
    rest := signed.2.dropWhile isDigit }

/-- The string behind the white space. -/
theorem dropWhile_isSpace {space rest : List UInt8} (spaces : ∀ byte ∈ space, isSpace byte = true)
    (stops : ∀ byte, rest.head? = some byte → isSpace byte = false) :
    (space ++ rest).dropWhile isSpace = rest := by
  rw [List.dropWhile_append_of_pos spaces]
  cases rest with
  | nil => rfl
  | cons byte rest => rw [List.dropWhile_cons_of_neg (by simp [stops byte rfl])]

theorem isDigit_iff {byte : UInt8} :
    isDigit byte = true ↔ 48 ≤ byte.toNat ∧ byte.toNat ≤ 57 := by
  simp [isDigit, UInt8.le_iff_toNat_le]

theorem not_isSpace_of_isDigit {byte : UInt8} (digit : isDigit byte = true) :
    isSpace byte = false := by
  rw [isDigit_iff] at digit
  simp [isSpace, ← UInt8.toNat_inj, UInt8.le_iff_toNat_le]
  omega

/-- The sign in front of a digit, or of nothing. -/
theorem scanSign_bytes_append (sign : Sign) {digits : List UInt8}
    (isDigit : ∀ byte ∈ digits, isDigit byte = true) :
    scanSign (sign.bytes ++ digits) = (sign, digits) := by
  cases sign with
  | plus => rfl
  | minus => rfl
  | none =>
      cases digits with
      | nil => rfl
      | cons digit digits =>
          have bounds := isDigit_iff.mp (isDigit digit List.mem_cons_self)
          have notPlus : digit ≠ 43 := by
            rintro rfl
            exact absurd bounds (by decide)
          have notMinus : digit ≠ 45 := by
            rintro rfl
            exact absurd bounds (by decide)
          rw [Sign.bytes, List.nil_append, scanSign, if_neg notPlus, if_neg notMinus]

theorem bytes_append_scanSign (bytes : List UInt8) :
    (scanSign bytes).1.bytes ++ (scanSign bytes).2 = bytes := by
  cases bytes with
  | nil => rfl
  | cons byte rest =>
      rw [scanSign]
      split
      · rename_i plus
        rw [plus]
        rfl
      · split
        · rename_i minus
          rw [minus]
          rfl
        · rfl

/-- The string behind the digits is the end of the string. -/
theorem scan_rest_suffix (bytes : List UInt8) : (scan bytes).rest <:+ bytes := by
  have signed : (scanSign (bytes.dropWhile isSpace)).2 <:+ bytes.dropWhile isSpace :=
    ⟨_, bytes_append_scanSign _⟩
  exact ((List.dropWhile_suffix isDigit).trans signed).trans (List.dropWhile_suffix isSpace)

/-- White space ends at the sign or at the first digit. -/
theorem Numeral.head_not_space (numeral : Numeral) {byte : UInt8}
    (head : (numeral.sign.bytes ++ numeral.digits).head? = some byte) :
    Number.isSpace byte = false := by
  obtain ⟨space, sign, digits, spaces, isDigit, nonempty⟩ := numeral
  cases sign with
  | plus =>
      cases head
      rfl
  | minus =>
      cases head
      rfl
  | none =>
      cases digits with
      | nil => exact absurd rfl nonempty
      | cons digit digits =>
          cases head
          exact not_isSpace_of_isDigit (isDigit _ List.mem_cons_self)

/-- The scan of a numeral finds its parts and stops at the end. -/
theorem scan_bytes (numeral : Numeral) :
    scan numeral.bytes = { sign := numeral.sign, digits := numeral.digits, rest := [] } := by
  have digits := numeral.isDigit
  rw [scan, Numeral.bytes, List.append_assoc,
    dropWhile_isSpace numeral.isSpace fun byte head => numeral.head_not_space head,
    scanSign_bytes_append numeral.sign digits, List.takeWhile_eq_self_iff.mpr digits,
    List.dropWhile_eq_nil_iff.mpr digits]

/-- A scan that finds digits and stops at the end has found a numeral. -/
theorem exists_numeral {bytes : List UInt8} (nonempty : (scan bytes).digits ≠ [])
    (ends : (scan bytes).rest = []) :
    ∃ numeral : Numeral, numeral.bytes = bytes ∧ numeral.sign = (scan bytes).sign ∧
      numeral.digits = (scan bytes).digits := by
  let numeral : Numeral := {
    space := bytes.takeWhile isSpace
    sign := (scan bytes).sign
    digits := (scan bytes).digits
    isSpace := fun byte member => List.mem_takeWhile_imp member
    isDigit := fun byte member => List.mem_takeWhile_imp member
    nonempty := nonempty }
  refine ⟨numeral, ?_, rfl, rfl⟩
  have whole : (scan bytes).digits ++ (scan bytes).rest =
      (scanSign (bytes.dropWhile isSpace)).2 := List.takeWhile_append_dropWhile
  rw [ends, List.append_nil] at whole
  calc
    numeral.bytes = bytes.takeWhile isSpace ++ ((scan bytes).sign.bytes ++ (scan bytes).digits) :=
      List.append_assoc ..
    _ = bytes.takeWhile isSpace ++ bytes.dropWhile isSpace := by
      rw [whole, scan, bytes_append_scanSign]
    _ = bytes := List.takeWhile_append_dropWhile

/-- What a string denotes, by its scan. -/
theorem denotes_iff {bytes : List UInt8} {value : Int} :
    Denotes bytes value ↔
      (scan bytes).digits ≠ [] ∧ (scan bytes).rest = [] ∧
        value = (scan bytes).sign.apply (magnitude (scan bytes).digits) := by
  constructor
  · rintro ⟨numeral, rfl, rfl⟩
    rw [scan_bytes]
    exact ⟨numeral.nonempty, rfl, rfl⟩
  · rintro ⟨nonempty, ends, rfl⟩
    obtain ⟨numeral, bytes, sign, digits⟩ := exists_numeral nonempty ends
    refine ⟨numeral, bytes, ?_⟩
    rw [Numeral.value, sign, digits]

/-- A string denotes at most one integer. -/
theorem Denotes.unique {bytes : List UInt8} {first second : Int} (left : Denotes bytes first)
    (right : Denotes bytes second) : first = second := by
  rw [denotes_iff] at left right
  rw [left.2.2, right.2.2]

theorem Denotes.ne_nil {bytes : List UInt8} {value : Int} (denotes : Denotes bytes value) :
    bytes ≠ [] := by
  rintro rfl
  exact (denotes_iff.mp denotes).1 rfl

instance (bytes : List UInt8) (value : Int) : Decidable (Denotes bytes value) :=
  decidable_of_iff _ denotes_iff.symm

end CExamples.Number
