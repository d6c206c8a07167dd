import CExamples.Number.Strtoumax
import Mathlib.Algebra.Ring.Int.Defs

/-!
# Signed conversion

`strtoimax` for base ten and an `intmax_t` of 64 bits, and the tests that a parser built
on it makes: of `errno`, of the byte at `endptr` and of a lower and an upper bound.
There is no wrapping, so the tests accept the numerals whose value is within the bounds
and, as 0, the empty string.
-/

namespace CExamples.Number

open CExamples.Word

/-- What `strtoimax` returns, the string at `endptr`, and `errno`, which was 0. -/
structure ConvertedSigned where
  value : Int64
  rest : List UInt8
  errno : Nat
  deriving DecidableEq

/-- `strtoimax(str, &endptr, 10)` -/
def strtoimax (str : List UInt8) : ConvertedSigned :=
  let scanned := scan str
  let number := scanned.sign.apply (magnitude scanned.digits)
  if scanned.digits = [] then { value := 0, rest := str, errno := 0 }
  else if number > 2 ^ 63 - 1 then
    { value := Int64.maxValue, rest := scanned.rest, errno := erange }
  else if number < -2 ^ 63 then
    { value := Int64.minValue, rest := scanned.rest, errno := erange }
  else { value := Int64.ofInt number, rest := scanned.rest, errno := 0 }

/-- Convert `str` and test `errno`, the byte at `endptr` and the bounds `min` and `max`. -/
def parseSigned (rejections : Rejections) (min max : Int64) (str : Text) :
    Except Rejection Int64 :=
  let converted := strtoimax str.bytes
  if converted.errno ≠ 0 then .error rejections.parsing
  else if Text.first converted.rest ≠ 0 then .error rejections.invalid
  else if converted.value < min || converted.value > max then .error rejections.outOfRange
  else .ok converted.value

/-- The least value of a signed type of `size` bytes. -/
def getSignedMin (unsupported : String) (size : Nat) : Except Rejection Int64 :=
  if size = 1 then .ok Int8.minValue.toInt64
  else if size = 2 then .ok Int16.minValue.toInt64
  else if size = 4 then .ok Int32.minValue.toInt64
  else if size = 8 then .ok Int64.minValue
  else .error (.stderr unsupported)

/-- The largest value of a signed type of `size` bytes. -/
def getSignedMax (unsupported : String) (size : Nat) : Except Rejection Int64 :=
  if size = 1 then .ok Int8.maxValue.toInt64
  else if size = 2 then .ok Int16.maxValue.toInt64
  else if size = 4 then .ok Int32.maxValue.toInt64
  else if size = 8 then .ok Int64.maxValue
  else .error (.stderr unsupported)

/-! ## What the conversion yields -/

/-- There are no digits, the number does not fit, or it is converted. -/
theorem strtoimax_cases (bytes : List UInt8) :
    (scan bytes).digits = [] ∧ strtoimax bytes = { value := 0, rest := bytes, errno := 0 } ∨
      (strtoimax bytes).errno = erange ∧ (strtoimax bytes).rest = (scan bytes).rest ∧
        (∀ value, Denotes bytes value → value < -2 ^ 63 ∨ 2 ^ 63 ≤ value) ∨
      (scan bytes).digits ≠ [] ∧ (strtoimax bytes).errno = 0 ∧
        (strtoimax bytes).rest = (scan bytes).rest ∧
        (strtoimax bytes).value.toInt = (scan bytes).sign.apply (magnitude (scan bytes).digits) := by
  by_cases empty : (scan bytes).digits = []
  · exact Or.inl ⟨empty, if_pos empty⟩
  · by_cases large : (scan bytes).sign.apply (magnitude (scan bytes).digits) > 2 ^ 63 - 1
    · right
      left
      rw [strtoimax, if_neg empty, if_pos large]
      refine ⟨rfl, rfl, ?_⟩
      intro value denotes
      rw [(denotes_iff.mp denotes).2.2]
      exact Or.inr (Int.le_of_sub_one_lt large)
    · by_cases low : (scan bytes).sign.apply (magnitude (scan bytes).digits) < -2 ^ 63
      · right
        left
        rw [strtoimax, if_neg empty, if_neg large, if_pos low]
        refine ⟨rfl, rfl, ?_⟩
        intro value denotes
        rw [(denotes_iff.mp denotes).2.2]
        exact Or.inl low
      · right
        right
        rw [strtoimax, if_neg empty, if_neg large, if_neg low]
        exact ⟨empty, rfl, rfl, Int64.toInt_ofInt_of_le (Int.not_lt.mp low) (by omega)⟩

/-- `endptr` points into the string. -/
theorem strtoimax_rest_suffix (bytes : List UInt8) : (strtoimax bytes).rest <:+ bytes := by
  rcases strtoimax_cases bytes with ⟨_, result⟩ | ⟨_, rest, _⟩ | ⟨_, _, rest, _⟩
  · rw [result]
  · rw [rest]
    exact scan_rest_suffix bytes
  · rw [rest]
    exact scan_rest_suffix bytes

/-- A conversion without an error that reaches the end of the string has converted the
numeral that the string is, or nothing. -/
theorem strtoimax_complete_iff {bytes : List UInt8} {value : Int64} :
    ((strtoimax bytes).errno = 0 ∧ (strtoimax bytes).rest = [] ∧
        (strtoimax bytes).value = value) ↔
      bytes = [] ∧ value = 0 ∨ Denotes bytes value.toInt := by
  rcases strtoimax_cases bytes with ⟨none, result⟩ | ⟨error, _, beyond⟩ | ⟨some, noError, rest, same⟩
  · rw [result]
    constructor
    · rintro ⟨_, ends, value⟩
      exact Or.inl ⟨ends, value.symm⟩
    · rintro (⟨empty, rfl⟩ | denotes)
      · exact ⟨rfl, empty, rfl⟩
      · exact absurd none (denotes_iff.mp denotes).1
  · constructor
    · rintro ⟨noError, _⟩
      rw [error] at noError
      cases noError
    · rintro (⟨rfl, _⟩ | denotes)
      · cases error
      · have high := value.toInt_lt
        have low := value.le_toInt
        rcases beyond _ denotes with below | above
        · exact absurd below (Int.not_lt.mpr low)
        · exact absurd high (Int.not_lt.mpr above)
  · rw [denotes_iff, rest, ← same]
    constructor
    · rintro ⟨_, ends, rfl⟩
      exact Or.inr ⟨some, ends, rfl⟩
    · rintro (⟨rfl, _⟩ | ⟨_, ends, valueEq⟩)
      · exact absurd rfl some
      · exact ⟨noError, ends, (Int64.toInt_inj.mp valueEq).symm⟩

/-! ## What the parser accepts -/

/-- The parser accepts the empty string as 0 and the numerals as what they denote, where
that is within the bounds. -/
theorem parseSigned_eq_ok_iff {rejections : Rejections} {min max value : Int64} {str : Text} :
    parseSigned rejections min max str = .ok value ↔
      (str.bytes = [] ∧ value = 0 ∨ Denotes str.bytes value.toInt) ∧ min ≤ value ∧
        value ≤ max := by
  have noZero : 0 ∉ (strtoimax str.bytes).rest := fun member =>
    str.noZero ((strtoimax_rest_suffix str.bytes).subset member)
  have first := Text.first_eq_zero_iff noZero
  rw [← strtoimax_complete_iff]
  unfold parseSigned
  simp only [ne_eq, first, Bool.or_eq_true, decide_eq_true_eq, gt_iff_lt]
  by_cases noError : (strtoimax str.bytes).errno = 0
  · by_cases ends : (strtoimax str.bytes).rest = []
    · rw [if_neg (not_not_intro noError), if_neg (not_not_intro ends)]
      by_cases outside : (strtoimax str.bytes).value < min ∨ max < (strtoimax str.bytes).value
      · rw [if_pos outside]
        constructor
        · intro accepted
          cases accepted
        · rintro ⟨⟨_, _, rfl⟩, low, high⟩
          rcases outside with below | above
          · exact absurd low (Int64.not_le.mpr below)
          · exact absurd high (Int64.not_le.mpr above)
      · rw [if_neg outside]
        have within := not_or.mp outside
        constructor
        · intro accepted
          cases accepted
          exact ⟨⟨noError, ends, rfl⟩, Int64.not_lt.mp within.1, Int64.not_lt.mp within.2⟩
        · rintro ⟨⟨_, _, rfl⟩, _⟩
          rfl
    · simp [noError, ends]
  · simp [noError]

/-- Bounds that leave out no value of 64 bits. -/
theorem parseSigned_unbounded_iff {rejections : Rejections} {value : Int64} {str : Text} :
    parseSigned rejections Int64.minValue Int64.maxValue str = .ok value ↔
      str.bytes = [] ∧ value = 0 ∨ Denotes str.bytes value.toInt := by
  rw [parseSigned_eq_ok_iff]
  exact and_iff_left ⟨Int64.minValue_le value, Int64.le_maxValue value⟩

end CExamples.Number
