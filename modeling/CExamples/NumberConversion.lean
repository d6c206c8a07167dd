import CExamples.Number.Prefix
import CExamples.Number.Strtoumax

/-!
# Converting and complaining

`number-conversion/strtol/main.c`, `strtoll`, `strtoul` and `strtoull`.  `convert` looks
at `errno`, at `endptr` and at the byte there, complains about each, and prints the result
all the same.  It takes `errno` for an error only together with the result that goes with
it, and for `unsigned long long` it compares with `ULONG_MAX`: where `long` is shorter, a
number that does not fit passes without a complaint.
-/

namespace CExamples.NumberConversion

open CExamples.Number
open CExamples.Word

/-- The bits of `long` and of `long long`. -/
structure Platform where
  long : Nat
  longLong : Nat
  positive : 0 < long
  le : long ≤ longLong

inductive Program
  | strtol
  | strtoll
  | strtoul
  | strtoull
  deriving DecidableEq, Repr

/-- What a conversion returns, the string at `endptr`, and `errno`, which was 0. -/
structure Conversion where
  value : Int
  rest : List UInt8
  errno : Nat
  deriving DecidableEq, Repr

/-- The least value of a signed type. -/
def signedMin (bits : Nat) : Int :=
  -2 ^ (bits - 1)

/-- The largest value of a signed type. -/
def signedMax (bits : Nat) : Int :=
  2 ^ (bits - 1) - 1

/-- The largest value of an unsigned type. -/
def unsignedMax (bits : Nat) : Int :=
  2 ^ bits - 1

/-- `strtol` or `strtoll`, for base ten. -/
def strtoSigned (bits : Nat) (str : List UInt8) : Conversion :=
  let scanned := scan str
  let number := scanned.sign.apply (magnitude scanned.digits)
  if scanned.digits = [] then { value := 0, rest := str, errno := 0 }
  else if number > signedMax bits then
    { value := signedMax bits, rest := scanned.rest, errno := erange }
  else if number < signedMin bits then
    { value := signedMin bits, rest := scanned.rest, errno := erange }
  else { value := number, rest := scanned.rest, errno := 0 }

/-- `strtoul` or `strtoull`, for base ten: a minus sign negates within the type. -/
def strtoUnsigned (bits : Nat) (str : List UInt8) : Conversion :=
  let scanned := scan str
  let number := scanned.sign.apply (magnitude scanned.digits)
  if scanned.digits = [] then { value := 0, rest := str, errno := 0 }
  else if magnitude scanned.digits > unsignedMax bits then
    { value := unsignedMax bits, rest := scanned.rest, errno := erange }
  else { value := number % 2 ^ bits, rest := scanned.rest, errno := 0 }

namespace Program

/-- The call that converts. -/
def call (platform : Platform) : Program → List UInt8 → Conversion
  | strtol => strtoSigned platform.long
  | strtoll => strtoSigned platform.longLong
  | strtoul => strtoUnsigned platform.long
  | strtoull => strtoUnsigned platform.longLong

/-- The results that `convert` takes for an overflow. -/
def limits (platform : Platform) : Program → List Int
  | strtol => [signedMax platform.long, signedMin platform.long]
  | strtoll => [signedMax platform.longLong, signedMin platform.longLong]
  | strtoul => [unsignedMax platform.long]
  | strtoull => [unsignedMax platform.long]

end Program

inductive Line
  /-- `Error during conversion: %s`, with `strerror(errno)` -/
  | error (errno : Nat)
  /-- `No digits were found in the input.` -/
  | noDigits
  /-- `Extra characters after the number: %s` -/
  | extra (text : List UInt8)
  /-- `Result: `, and the number -/
  | result (value : Int)
  deriving DecidableEq, Repr

/-- `convert`; `endptr` is `str` where nothing of the string was converted. -/
def convert (platform : Platform) (program : Program) (str : Text) : List Line :=
  let converted := program.call platform str.bytes
  (if converted.errno = erange ∧ converted.value ∈ program.limits platform ∨
      converted.errno ≠ 0 ∧ converted.value = 0 then [.error converted.errno] else []) ++
    (if converted.rest = str.bytes then [.noDigits] else []) ++
    (if Text.first converted.rest ≠ 0 then [.extra converted.rest] else []) ++
    [.result converted.value]

/-! ## What a number comes to -/

namespace Program

/-- The type is signed. -/
def signed : Program → Bool
  | strtol | strtoll => true
  | strtoul | strtoull => false

/-- The bits of the type. -/
def bits (platform : Platform) : Program → Nat
  | strtol | strtoul => platform.long
  | strtoll | strtoull => platform.longLong

/-- The least number that the type takes; an unsigned type takes negative numbers, too. -/
def least (platform : Platform) (program : Program) : Int :=
  if program.signed then signedMin (program.bits platform)
  else -unsignedMax (program.bits platform)

/-- The largest number that the type takes. -/
def largest (platform : Platform) (program : Program) : Int :=
  if program.signed then signedMax (program.bits platform)
  else unsignedMax (program.bits platform)

def Fits (platform : Platform) (program : Program) (number : Int) : Prop :=
  program.least platform ≤ number ∧ number ≤ program.largest platform

instance (platform : Platform) (program : Program) (number : Int) :
    Decidable (program.Fits platform number) :=
  inferInstanceAs (Decidable (_ ∧ _))

/-- The value of the type that a number comes to: unsigned types wrap what they take, and
otherwise have their largest value for it. -/
def represent (platform : Platform) (program : Program) (number : Int) : Int :=
  if program.signed then max (program.least platform) (min number (program.largest platform))
  else if program.Fits platform number then number % 2 ^ program.bits platform
  else program.largest platform

/-- The program notices that the number does not fit. -/
def Complains (platform : Platform) (program : Program) (number : Int) : Prop :=
  ¬program.Fits platform number ∧ (program = .strtoull → platform.long = platform.longLong)

instance (platform : Platform) (program : Program) (number : Int) :
    Decidable (program.Complains platform number) :=
  inferInstanceAs (Decidable (¬_ ∧ _))

end Program

/-! ## What is printed -/

section Convert

variable {platform : Platform} {program : Program} {str : Text} {value : Int} {rest : List UInt8}

theorem signedMin_neg (bits : Nat) : signedMin bits < 0 := by
  have positive : (0 : Int) < 2 ^ (bits - 1) := Int.pow_pos (by decide)
  rw [signedMin]
  omega

theorem unsignedMax_pos {bits : Nat} (positive : 0 < bits) : 0 < unsignedMax bits := by
  have large : 1 < 2 ^ bits := Nat.one_lt_two_pow (Nat.pos_iff_ne_zero.mp positive)
  have cast : ((2 ^ bits : Nat) : Int) = 2 ^ bits := Nat.cast_pow 2 bits
  rw [unsignedMax, ← cast]
  omega

theorem unsignedMax_inj {bits other : Nat} (same : unsignedMax bits = unsignedMax other) :
    bits = other := by
  have powers : ((2 ^ bits : Nat) : Int) = (2 ^ other : Nat) := by
    simp only [unsignedMax] at same
    push_cast
    omega
  exact Nat.pow_right_injective (Nat.le_refl 2) (Int.natCast_inj.mp powers)

theorem strtoSigned_of_begins {bits : Nat} {bytes : List UInt8} (begins : Begins bytes value rest) :
    strtoSigned bits bytes =
      { value := max (signedMin bits) (min value (signedMax bits))
        rest := rest
        errno := if signedMin bits ≤ value ∧ value ≤ signedMax bits then 0 else erange } := by
  obtain ⟨nonempty, rfl, valueEq⟩ := begins_iff.mp begins
  have low : signedMin bits ≤ signedMax bits := by
    have positive : (0 : Int) < 2 ^ (bits - 1) := Int.pow_pos (by decide)
    simp only [signedMin, signedMax]
    omega
  simp only [strtoSigned, if_neg nonempty, ← valueEq]
  by_cases above : value > signedMax bits
  · rw [if_pos above, if_neg (by omega), min_eq_right (by omega), max_eq_right low]
  · by_cases below : value < signedMin bits
    · rw [if_neg above, if_pos below, if_neg (by omega), min_eq_left (by omega),
        max_eq_left (by omega)]
    · rw [if_neg above, if_neg below, if_pos (by omega), min_eq_left (by omega),
        max_eq_right (by omega)]

theorem strtoUnsigned_of_begins {bits : Nat} {bytes : List UInt8}
    (begins : Begins bytes value rest) :
    strtoUnsigned bits bytes =
      { value := if -unsignedMax bits ≤ value ∧ value ≤ unsignedMax bits then value % 2 ^ bits
          else unsignedMax bits
        rest := rest
        errno := if -unsignedMax bits ≤ value ∧ value ≤ unsignedMax bits then 0 else erange } := by
  obtain ⟨nonempty, rfl, valueEq⟩ := begins_iff.mp begins
  have absolute := Sign.natAbs_apply (scan bytes).sign (magnitude (scan bytes).digits)
  rw [← valueEq] at absolute
  simp only [strtoUnsigned, if_neg nonempty, ← valueEq]
  by_cases fits : -unsignedMax bits ≤ value ∧ value ≤ unsignedMax bits
  · rw [if_neg (by omega), if_pos fits, if_pos fits]
  · rw [if_pos (by omega), if_neg fits, if_neg fits]

/-- The call without digits. -/
theorem call_of_noDigits (none : (scan str.bytes).digits = []) :
    program.call platform str.bytes = { value := 0, rest := str.bytes, errno := 0 } := by
  cases program <;> exact if_pos none

/-- The call for a number. -/
theorem call_of_begins (begins : Begins str.bytes value rest) :
    program.call platform str.bytes =
      { value := program.represent platform value
        rest := rest
        errno := if program.Fits platform value then 0 else erange } := by
  cases program with
  | strtol | strtoll => exact strtoSigned_of_begins begins
  | strtoul | strtoull => exact strtoUnsigned_of_begins begins

/-- The result of a number that does not fit. -/
theorem represent_of_not_fits (beyond : ¬program.Fits platform value) :
    program.represent platform value = program.largest platform ∨
      program.signed = true ∧ program.represent platform value = program.least platform := by
  rw [Program.represent]
  by_cases signed : program.signed = true
  · rw [if_pos signed]
    rw [Program.Fits, not_and_or] at beyond
    have low : program.least platform ≤ program.largest platform := by
      rw [Program.least, Program.largest, if_pos signed, if_pos signed]
      have positive : (0 : Int) < 2 ^ (program.bits platform - 1) := Int.pow_pos (by decide)
      simp only [signedMin, signedMax]
      omega
    rcases beyond with below | above
    · exact Or.inr ⟨signed, by rw [min_eq_left (by omega), max_eq_left (by omega)]⟩
    · exact Or.inl (by rw [min_eq_right (by omega), max_eq_right low])
  · rw [if_neg signed, if_neg beyond]
    exact Or.inl rfl

/-- The program looks for the result of a number that does not fit, but for
`unsigned long long` it looks for the largest value of `unsigned long`. -/
theorem notices_iff (beyond : ¬program.Fits platform value) :
    program.represent platform value ∈ program.limits platform ∨
        program.represent platform value = 0 ↔
      (program = .strtoull → platform.long = platform.longLong) := by
  rcases represent_of_not_fits beyond with result | ⟨signed, result⟩
  · rw [result]
    cases program with
    | strtol | strtoll => simp [Program.limits, Program.largest, Program.signed, Program.bits]
    | strtoul => simp [Program.limits, Program.largest, Program.signed, Program.bits]
    | strtoull =>
        have positive := unsignedMax_pos (Nat.lt_of_lt_of_le platform.positive platform.le)
        simp only [Program.limits, Program.largest, Program.signed, Program.bits,
          Bool.false_eq_true, if_false, List.mem_singleton, forall_const]
        constructor
        · rintro (same | zero)
          · exact (unsignedMax_inj same).symm
          · omega
        · exact fun same => Or.inl (by rw [same])
  · rw [result]
    cases program with
    | strtol | strtoll => simp [Program.limits, Program.least, Program.signed, Program.bits]
    | strtoul | strtoull => cases signed

/-- What is printed for a string that begins with a number. -/
theorem convert_of_begins (begins : Begins str.bytes value rest) :
    convert platform program str =
      (if program.Complains platform value then [.error erange] else []) ++
        (if rest = [] then [] else [.extra rest]) ++
        [.result (program.represent platform value)] := by
  obtain ⟨spelled, split, denotes, _⟩ := id begins
  have noZero : 0 ∉ rest := fun member =>
    str.noZero (by rw [split]; exact List.mem_append_right _ member)
  have moved : rest ≠ str.bytes := by
    intro same
    rw [← same] at split
    exact denotes.ne_nil (List.self_eq_append_left.mp split)
  have complains : ((if program.Fits platform value then 0 else erange) = erange ∧
        program.represent platform value ∈ program.limits platform ∨
      (if program.Fits platform value then 0 else erange) ≠ 0 ∧
        program.represent platform value = 0) ↔ program.Complains platform value := by
    by_cases fits : program.Fits platform value
    · simp [fits, Program.Complains, erange]
    · rw [Program.Complains, ← notices_iff fits]
      simp [fits, erange]
  have extra : (if Text.first rest ≠ 0 then [Line.extra rest] else []) =
      if rest = [] then [] else [.extra rest] := by
    simp only [ne_eq, Text.first_eq_zero_iff noZero, ite_not]
  have errno : (if program.Complains platform value then
        [Line.error (if program.Fits platform value then 0 else erange)] else []) =
      if program.Complains platform value then [.error erange] else [] := by
    split
    · rename_i complains
      rw [if_neg complains.1]
    · rfl
  simp only [convert, call_of_begins begins, complains, extra, if_neg moved, errno, List.append_nil]

/-- What is printed for any other string. -/
theorem convert_of_not_begins (other : ∀ value rest, ¬Begins str.bytes value rest) :
    convert platform program str =
      .noDigits :: (if str.bytes = [] then [] else [.extra str.bytes]) ++ [.result 0] := by
  have none : (scan str.bytes).digits = [] := by
    by_contra some
    exact other _ _ (begins_iff.mpr ⟨some, rfl, rfl⟩)
  have extra : (if Text.first str.bytes ≠ 0 then [Line.extra str.bytes] else []) =
      if str.bytes = [] then [] else [.extra str.bytes] := by
    simp only [ne_eq, Text.first_eq_zero_iff str.noZero, ite_not]
  simp [convert, call_of_noDigits none, extra, erange]

/-- Only the result is printed. -/
theorem convert_eq_result_iff {shown : Int} :
    convert platform program str = [.result shown] ↔
      ∃ value, Denotes str.bytes value ∧ ¬program.Complains platform value ∧
        shown = program.represent platform value := by
  by_cases number : ∃ value rest, Begins str.bytes value rest
  · rcases number with ⟨value, rest, begins⟩
    rw [convert_of_begins begins]
    constructor
    · intro quiet
      by_cases complains : program.Complains platform value
      · simp [if_pos complains] at quiet
      · by_cases ends : rest = []
        · rw [if_neg complains, if_pos ends] at quiet
          cases quiet
          rw [ends] at begins
          exact ⟨value, begins_nil_iff.mp begins, complains, rfl⟩
        · simp [if_neg complains, if_neg ends] at quiet
    · rintro ⟨other, denotes, fine, rfl⟩
      have whole := begins_iff.mp (begins_nil_iff.mpr denotes)
      have parts := begins_iff.mp begins
      have restEq : rest = [] := parts.2.1.trans whole.2.1.symm
      have valueEq : value = other := parts.2.2.trans whole.2.2.symm
      rw [valueEq, if_neg fine, if_pos restEq]
      rfl
  · rw [convert_of_not_begins fun value rest begins => number ⟨value, rest, begins⟩]
    constructor
    · intro quiet
      cases List.cons.inj quiet |>.1
    · rintro ⟨value, denotes, _⟩
      exact absurd ⟨value, [], begins_nil_iff.mpr denotes⟩ number

/-- What `convert` prints for a string: a line about the range, one about missing digits
and one about what is behind the number, each where there is a reason, and the result. -/
structure Reports (platform : Platform) (program : Program) (str : Text) : Prop where
  /-- The string begins with a number. -/
  number : ∀ value rest, Begins str.bytes value rest →
    convert platform program str =
      (if program.Complains platform value then [.error erange] else []) ++
        (if rest = [] then [] else [.extra rest]) ++
        [.result (program.represent platform value)]
  /-- It does not. -/
  other : (∀ value rest, ¬Begins str.bytes value rest) →
    convert platform program str =
      .noDigits :: (if str.bytes = [] then [] else [.extra str.bytes]) ++ [.result 0]
  /-- Without a complaint a numeral is converted, to what it denotes if it fits. -/
  quiet : ∀ shown, convert platform program str = [.result shown] ↔
    ∃ value, Denotes str.bytes value ∧ ¬program.Complains platform value ∧
      shown = program.represent platform value

end Convert

/-- Every conversion reports what there is to report, except that for `unsigned long long`
an overflow goes unnoticed where `long` is shorter. -/
theorem convert_reports (platform : Platform) (program : Program) (str : Text) :
    Reports platform program str :=
  ⟨fun _ _ => convert_of_begins, convert_of_not_begins, fun _ => convert_eq_result_iff⟩

/-- Where `long` has 32 bits, a number above the range is taken without a word. -/
example : convert ⟨32, 64, by decide, by decide⟩ .strtoull
    ⟨[57, 57, 57, 57, 57, 57, 57, 57, 57, 57, 57, 57, 57, 57, 57, 57, 57, 57, 57, 57], by decide⟩ =
      [.result 18446744073709551615] := by
  decide +kernel

end CExamples.NumberConversion
