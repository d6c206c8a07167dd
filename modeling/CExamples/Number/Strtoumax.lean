import CExamples.Number.Numeral
import Mathlib.Data.UInt

/-!
# Unsigned conversion

`strtoumax` for base ten and a `uintmax_t` of 64 bits, and the three tests that a
parser built on it makes: of `errno`, of the byte at `endptr` and of an upper bound.
A minus sign negates the value modulo `2 ^ 64`, and where there are no digits the
value is 0 and `endptr` is the string itself.  Hence the tests accept the empty
string besides the numerals whose value, wrapped, is within the bound.
-/

namespace CExamples.Number

open CExamples.Word

/-- `ERANGE` -/
def erange : Nat :=
  34

/-- What `strtoumax` returns, the string at `endptr`, and `errno`, which was 0. -/
structure Converted where
  value : UInt64
  rest : List UInt8
  errno : Nat
  deriving DecidableEq, Repr

/-- The 64-bit value of a number with a sign. -/
def Sign.wrap : Sign → Nat → UInt64
  | .minus, magnitude => -UInt64.ofNat magnitude
  | _, magnitude => UInt64.ofNat magnitude

/-- `strtoumax(str, &endptr, 10)` -/
def strtoumax (str : List UInt8) : Converted :=
  let scanned := scan str
  if scanned.digits = [] then { value := 0, rest := str, errno := 0 }
  else if magnitude scanned.digits ≥ 2 ^ 64 then
    { value := UInt64.ofNat (2 ^ 64 - 1), rest := scanned.rest, errno := erange }
  else
    { value := scanned.sign.wrap (magnitude scanned.digits), rest := scanned.rest, errno := 0 }

/-- How a parser ends the program: with `perror`, with `usage`, or with a line of its own. -/
inductive Rejection
  | perror (message : String)
  | usage (message : String)
  | stderr (message : String)
  deriving DecidableEq, Repr

/-- What a parser says after each of its tests. -/
structure Rejections where
  parsing : Rejection
  invalid : Rejection
  outOfRange : Rejection

/-- Convert `str` and test `errno`, the byte at `endptr` and the upper bound `max`. -/
def parseUnsigned (rejections : Rejections) (max : UInt64) (str : Text) :
    Except Rejection UInt64 :=
  let converted := strtoumax str.bytes
  if converted.errno ≠ 0 then .error rejections.parsing
  else if Text.first converted.rest ≠ 0 then .error rejections.invalid
  else if converted.value > max then .error rejections.outOfRange
  else .ok converted.value

/-- The string is a numeral with a minus sign that wraps to a number of at most
`bound`. -/
def WrapsWithin (bound : Nat) (bytes : List UInt8) : Prop :=
  ∃ magnitude : Nat, Denotes bytes (-magnitude) ∧
    2 ^ 64 - bound ≤ magnitude ∧ magnitude < 2 ^ 64

/-! ## What the conversion yields -/

@[simp]
theorem Sign.natAbs_apply (sign : Sign) (magnitude : Nat) :
    (sign.apply magnitude).natAbs = magnitude := by
  cases sign <;> simp [apply]

/-- Wrapping is reduction modulo `2 ^ 64`. -/
theorem Sign.toNat_wrap (sign : Sign) {magnitude : Nat} (small : magnitude < 2 ^ 64) :
    ((sign.wrap magnitude).toNat : Int) = sign.apply magnitude % 2 ^ 64 := by
  have positive : (UInt64.ofNat magnitude).toNat = magnitude := UInt64.toNat_ofNat_of_lt' small
  cases sign with
  | minus =>
      rw [wrap, apply, UInt64.toNat_neg, positive, UInt64.size]
      omega
  | none =>
      change ((UInt64.ofNat magnitude).toNat : Int) = (magnitude : Int) % 2 ^ 64
      rw [positive]
      omega
  | plus =>
      change ((UInt64.ofNat magnitude).toNat : Int) = (magnitude : Int) % 2 ^ 64
      rw [positive]
      omega

/-- There are no digits, too many, or as many as fit. -/
theorem strtoumax_cases (bytes : List UInt8) :
    (scan bytes).digits = [] ∧ strtoumax bytes = { value := 0, rest := bytes, errno := 0 } ∨
      (scan bytes).digits ≠ [] ∧ 2 ^ 64 ≤ magnitude (scan bytes).digits ∧
        strtoumax bytes =
          { value := UInt64.ofNat (2 ^ 64 - 1), rest := (scan bytes).rest, errno := erange } ∨
      (scan bytes).digits ≠ [] ∧ magnitude (scan bytes).digits < 2 ^ 64 ∧
        strtoumax bytes =
          { value := (scan bytes).sign.wrap (magnitude (scan bytes).digits)
            rest := (scan bytes).rest
            errno := 0 } := by
  by_cases empty : (scan bytes).digits = []
  · exact Or.inl ⟨empty, if_pos empty⟩
  · by_cases large : magnitude (scan bytes).digits ≥ 2 ^ 64
    · exact Or.inr (Or.inl ⟨empty, large, (if_neg empty).trans (if_pos large)⟩)
    · exact Or.inr (Or.inr ⟨empty, Nat.lt_of_not_le large, (if_neg empty).trans (if_neg large)⟩)

/-- `endptr` points into the string. -/
theorem strtoumax_rest_suffix (bytes : List UInt8) : (strtoumax bytes).rest <:+ bytes := by
  rcases strtoumax_cases bytes with ⟨_, result⟩ | ⟨_, _, result⟩ | ⟨_, _, result⟩
  · rw [result]
  · rw [result]
    exact scan_rest_suffix bytes
  · rw [result]
    exact scan_rest_suffix bytes

/-- A numeral that is not too large is converted to its value modulo `2 ^ 64`. -/
theorem strtoumax_of_denotes {bytes : List UInt8} {value : Int} (denotes : Denotes bytes value)
    (small : value.natAbs < 2 ^ 64) :
    (strtoumax bytes).errno = 0 ∧ (strtoumax bytes).rest = [] ∧
      ((strtoumax bytes).value.toNat : Int) = value % 2 ^ 64 := by
  obtain ⟨nonempty, ends, rfl⟩ := denotes_iff.mp denotes
  rw [Sign.natAbs_apply] at small
  rw [strtoumax, if_neg nonempty, if_neg (Nat.not_le.mpr small)]
  exact ⟨rfl, ends, Sign.toNat_wrap _ small⟩

/-- A conversion without an error that reaches the end of the string has converted a
numeral, or nothing. -/
theorem denotes_of_strtoumax {bytes : List UInt8} (noError : (strtoumax bytes).errno = 0)
    (ends : (strtoumax bytes).rest = []) :
    bytes = [] ∨ ∃ value, Denotes bytes value ∧ value.natAbs < 2 ^ 64 := by
  rcases strtoumax_cases bytes with ⟨_, result⟩ | ⟨_, _, result⟩ | ⟨nonempty, small, result⟩
  · rw [result] at ends
    exact Or.inl ends
  · rw [result] at noError
    cases noError
  · rw [result] at ends
    refine Or.inr ⟨_, denotes_iff.mpr ⟨nonempty, ends, rfl⟩, ?_⟩
    rwa [Sign.natAbs_apply]

/-! ## What the parser accepts -/

/-- Of two parsers in a row each accepts. -/
theorem bind_eq_ok_iff {α β : Type} {parsed : Except Rejection α} {next : α → Except Rejection β}
    {result : β} :
    (parsed >>= next) = .ok result ↔ ∃ value, parsed = .ok value ∧ next value = .ok result := by
  cases parsed with
  | error rejection => simp [bind, Except.bind]
  | ok value => simp [bind, Except.bind]

/-- The tests let a conversion pass that is complete, without an error and within the
bound. -/
theorem parseUnsigned_eq_ok {rejections : Rejections} {max value : UInt64} {str : Text} :
    parseUnsigned rejections max str = .ok value ↔
      (strtoumax str.bytes).errno = 0 ∧ (strtoumax str.bytes).rest = [] ∧
        (strtoumax str.bytes).value ≤ max ∧ (strtoumax str.bytes).value = value := by
  have noZero : 0 ∉ (strtoumax str.bytes).rest := fun member =>
    str.noZero ((strtoumax_rest_suffix str.bytes).subset member)
  have first := Text.first_eq_zero_iff noZero
  unfold parseUnsigned
  simp only [ne_eq, first]
  by_cases noError : (strtoumax str.bytes).errno = 0
  · by_cases ends : (strtoumax str.bytes).rest = []
    · by_cases above : (strtoumax str.bytes).value > max
      · simp [noError, ends, above, UInt64.not_le.mpr above]
      · simp [noError, ends, above, UInt64.not_lt.mp above]
    · simp [noError, ends]
  · simp [noError]

theorem parseUnsigned_le {rejections : Rejections} {max value : UInt64} {str : Text}
    (accepted : parseUnsigned rejections max str = .ok value) : value.toNat ≤ max.toNat := by
  rw [parseUnsigned_eq_ok] at accepted
  rw [← accepted.2.2.2, ← UInt64.le_iff_toNat_le]
  exact accepted.2.2.1

/-- The parser accepts the empty string as 0, and the numerals that are within the bound
when they are wrapped. -/
theorem parseUnsigned_eq_ok_iff {rejections : Rejections} {max value : UInt64} {str : Text} :
    parseUnsigned rejections max str = .ok value ↔
      str.bytes = [] ∧ value = 0 ∨
        ∃ denoted, Denotes str.bytes denoted ∧ denoted.natAbs < 2 ^ 64 ∧
          (value.toNat : Int) = denoted % 2 ^ 64 ∧ value ≤ max := by
  rw [parseUnsigned_eq_ok]
  constructor
  · rintro ⟨noError, ends, within, rfl⟩
    rcases denotes_of_strtoumax noError ends with empty | ⟨denoted, denotes, small⟩
    · left
      rw [empty]
      exact ⟨rfl, rfl⟩
    · right
      have converted := strtoumax_of_denotes denotes small
      exact ⟨denoted, denotes, small, converted.2.2, within⟩
  · rintro (⟨empty, rfl⟩ | ⟨denoted, denotes, small, wrapped, within⟩)
    · rw [empty]
      exact ⟨rfl, rfl, UInt64.zero_le, rfl⟩
    · obtain ⟨noError, ends, converted⟩ := strtoumax_of_denotes denotes small
      have same : (strtoumax str.bytes).value = value := by
        apply UInt64.toNat_inj.mp
        omega
      rw [same]
      exact ⟨noError, ends, within, rfl⟩

/-- The same for the number that the parser returns. -/
theorem parseUnsigned_returns_iff {rejections : Rejections} {max : UInt64} {str : Text}
    {number : Nat} :
    (∃ value, parseUnsigned rejections max str = .ok value ∧ value.toNat = number) ↔
      str.bytes = [] ∧ number = 0 ∨
        ∃ denoted, Denotes str.bytes denoted ∧ denoted.natAbs < 2 ^ 64 ∧
          (number : Int) = denoted % 2 ^ 64 ∧ number ≤ max.toNat := by
  constructor
  · rintro ⟨value, accepted, rfl⟩
    rcases parseUnsigned_eq_ok_iff.mp accepted with ⟨empty, rfl⟩ | ⟨denoted, facts⟩
    · exact Or.inl ⟨empty, rfl⟩
    · rw [UInt64.le_iff_toNat_le] at facts
      exact Or.inr ⟨denoted, facts⟩
  · rintro (⟨empty, rfl⟩ | ⟨denoted, denotes, small, wrapped, within⟩)
    · exact ⟨0, parseUnsigned_eq_ok_iff.mpr (Or.inl ⟨empty, rfl⟩), rfl⟩
    · have fits : number < 2 ^ 64 := by omega
      have number_eq : (UInt64.ofNat number).toNat = number := UInt64.toNat_ofNat_of_lt' fits
      refine ⟨UInt64.ofNat number, parseUnsigned_eq_ok_iff.mpr (Or.inr ?_), number_eq⟩
      rw [UInt64.le_iff_toNat_le, number_eq]
      exact ⟨denoted, denotes, small, wrapped, within⟩

/-- A numeral within the bound is accepted as what it denotes. -/
theorem returns_of_denotes (rejections : Rejections) {max : UInt64} {str : Text} {number : Nat}
    (denotes : Denotes str.bytes number) (within : number ≤ max.toNat) :
    ∃ value, parseUnsigned rejections max str = .ok value ∧ value.toNat = number := by
  have fits := max.toNat_lt
  exact parseUnsigned_returns_iff.mpr
    (Or.inr ⟨number, denotes, by omega, by omega, within⟩)

/-- What is accepted is what the string denotes, if the string is not empty and has not
wrapped. -/
theorem denotes_of_returns {rejections : Rejections} {max value : UInt64} {str : Text}
    (accepted : parseUnsigned rejections max str = .ok value) (nonempty : str.bytes ≠ [])
    (noWrap : ¬WrapsWithin max.toNat str.bytes) : Denotes str.bytes value.toNat := by
  rcases parseUnsigned_returns_iff.mp ⟨value, accepted, rfl⟩ with
    ⟨empty, _⟩ | ⟨denoted, denotes, small, wrapped, within⟩
  · exact absurd empty nonempty
  · by_cases negative : denoted < 0
    · -- a negative numeral has wrapped, since zero needs no sign
      apply absurd _ noWrap
      refine ⟨denoted.natAbs, ?_, by omega, small⟩
      rwa [show -(denoted.natAbs : Int) = denoted by omega]
    · rwa [show (value.toNat : Int) = denoted by omega]

/-- A numeral that wraps within the bound is accepted as a number that it does not
denote. -/
theorem returns_of_wrapsWithin (rejections : Rejections) {max : UInt64} {str : Text}
    (wraps : WrapsWithin max.toNat str.bytes) :
    ∃ value, parseUnsigned rejections max str = .ok value ∧
      ¬Denotes str.bytes value.toNat := by
  obtain ⟨magnitude, denotes, low, high⟩ := wraps
  have fits := max.toNat_lt
  have returns : ∃ value, parseUnsigned rejections max str = .ok value ∧
      value.toNat = 2 ^ 64 - magnitude :=
    parseUnsigned_returns_iff.mpr (Or.inr ⟨_, denotes, by omega, by omega, by omega⟩)
  obtain ⟨value, accepted, value_eq⟩ := returns
  refine ⟨value, accepted, ?_⟩
  intro denotes'
  have same := denotes.unique denotes'
  omega

end CExamples.Number
