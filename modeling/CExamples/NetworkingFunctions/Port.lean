import CExamples.Number.Strtoumax

/-!
# Port numbers

`parse_in_port_t` stands with the same body in the programs of `tcp`, `udp`,
`sockets` and `networking-functions`.  It does not look whether `strtoumax` has found
any digits, and it compares the value with the largest port only after a minus sign
has wrapped it.
-/

namespace CExamples.NetworkingFunctions

open CExamples.Number
open CExamples.Word

/-- What `parse_in_port_t` says. -/
def portRejections : Rejections where
  parsing := .perror "Error parsing in_port_t"
  invalid := .usage "Invalid characters in input."
  outOfRange := .usage "in_port_t value out of range."

/-- `parse_in_port_t` -/
def parseInPortT (str : Text) : Except Rejection UInt16 :=
  (parseUnsigned portRejections 65535 str).map UInt64.toUInt16

/-- The string is accepted as the port `value`. -/
def AcceptedAs (str : Text) (value : Int) : Prop :=
  ∃ port, parseInPortT str = .ok port ∧ (port.toNat : Int) = value

/-- The string is accepted exactly if it denotes a port, and as that port. -/
def Exact (str : Text) : Prop :=
  ∀ value, AcceptedAs str value ↔ Denotes str.bytes value ∧ 0 ≤ value ∧ value ≤ 65535

theorem parseInPortT_eq_ok_iff {str : Text} {port : UInt16} :
    parseInPortT str = .ok port ↔
      ∃ parsed, parseUnsigned portRejections 65535 str = .ok parsed ∧
        parsed.toNat = port.toNat := by
  unfold parseInPortT
  cases parsed : parseUnsigned portRejections 65535 str with
  | error rejection => simp [Except.map]
  | ok value =>
      have within : value.toNat ≤ 65535 := parseUnsigned_le parsed
      have cast : value.toUInt16.toNat = value.toNat := by
        rw [UInt64.toNat_toUInt16]
        exact Nat.mod_eq_of_lt (by omega)
      simp [Except.map, ← UInt16.toNat_inj, cast]

theorem acceptedAs_iff {str : Text} {value : Int} :
    AcceptedAs str value ↔
      ∃ parsed, parseUnsigned portRejections 65535 str = .ok parsed ∧
        (parsed.toNat : Int) = value := by
  constructor
  · rintro ⟨port, accepted, rfl⟩
    obtain ⟨parsed, returned, same⟩ := parseInPortT_eq_ok_iff.mp accepted
    exact ⟨parsed, returned, congrArg Int.ofNat same⟩
  · rintro ⟨parsed, returned, rfl⟩
    have within : parsed.toNat ≤ 65535 := parseUnsigned_le returned
    have cast : (UInt16.ofNat parsed.toNat).toNat = parsed.toNat :=
      UInt16.toNat_ofNat_of_lt' (by rw [UInt16.size]; omega)
    exact ⟨UInt16.ofNat parsed.toNat, parseInPortT_eq_ok_iff.mpr ⟨parsed, returned, cast.symm⟩,
      congrArg Int.ofNat cast⟩

/-- On which strings `parse_in_port_t` is exact. -/
theorem exact_iff (str : Text) :
    Exact str ↔ str.bytes ≠ [] ∧ ¬WrapsWithin 65535 str.bytes := by
  constructor
  · intro exactly
    constructor
    · intro empty
      have accepted : AcceptedAs str 0 :=
        acceptedAs_iff.mpr ⟨0, parseUnsigned_eq_ok_iff.mpr (Or.inl ⟨empty, rfl⟩), rfl⟩
      exact ((exactly 0).mp accepted).1.ne_nil empty
    · intro wraps
      have within : WrapsWithin (UInt64.toNat 65535) str.bytes := wraps
      obtain ⟨parsed, returned, differs⟩ := returns_of_wrapsWithin portRejections within
      exact differs ((exactly _).mp (acceptedAs_iff.mpr ⟨parsed, returned, rfl⟩)).1
  · rintro ⟨nonempty, noWrap⟩ value
    rw [acceptedAs_iff]
    constructor
    · rintro ⟨parsed, returned, rfl⟩
      have within : parsed.toNat ≤ 65535 := parseUnsigned_le returned
      exact ⟨denotes_of_returns returned nonempty noWrap, by omega, by omega⟩
    · rintro ⟨denotes, low, high⟩
      obtain ⟨number, rfl⟩ := Int.eq_ofNat_of_zero_le low
      have within : number ≤ UInt64.toNat 65535 := Int.ofNat_le.mp high
      obtain ⟨parsed, returned, same⟩ := returns_of_denotes portRejections denotes within
      exact ⟨parsed, returned, congrArg Int.ofNat same⟩

/-- The empty string is accepted as port 0. -/
theorem emptyText_accepted :
    parseInPortT ⟨[], by decide⟩ = .ok 0 ∧ (∀ value, ¬Denotes [] value) ∧
      ¬Exact ⟨[], by decide⟩ := by
  refine ⟨by decide, fun value denotes => denotes.ne_nil rfl, ?_⟩
  intro exactly
  exact ((exact_iff _).mp exactly).1 rfl

/-- The numeral `-18446744073709551615` is accepted as port 1. -/
example :
    let bytes : List UInt8 :=
      [45, 49, 56, 52, 52, 54, 55, 52, 52, 48, 55, 51, 55, 48, 57, 53, 53, 49, 54, 49, 53]
    Denotes bytes (-18446744073709551615) ∧ parseInPortT ⟨bytes, by decide⟩ = .ok 1 := by
  decide

end CExamples.NetworkingFunctions
