import CExamples.Number.Numeral

/-!
# The numeral that a text begins with

A text may go on behind a numeral.  The numeral that it begins with takes all of the
digits, so that no digit follows; the scan of the text finds it, or no digits.
-/

namespace CExamples.Number

/-- The text begins with a numeral for `value` that takes all the digits, and goes on with
`rest`. -/
def Begins (bytes : List UInt8) (value : Int) (rest : List UInt8) : Prop :=
  ∃ spelled, bytes = spelled ++ rest ∧ Denotes spelled value ∧
    ∀ byte, rest.head? = some byte → isDigit byte = false

/-- The scan of a numeral stops where its digits end. -/
theorem scan_append (numeral : Numeral) {rest : List UInt8}
    (stops : ∀ byte, rest.head? = some byte → isDigit byte = false) :
    scan (numeral.bytes ++ rest) =
      { sign := numeral.sign, digits := numeral.digits, rest := rest } := by
  have digits := numeral.isDigit
  have starts (byte : UInt8)
      (head : (numeral.sign.bytes ++ (numeral.digits ++ rest)).head? = some byte) :
      isSpace byte = false := by
    apply numeral.head_not_space
    rw [← head]
    have nonempty : numeral.sign.bytes ++ numeral.digits ≠ [] := by
      simp [numeral.nonempty]
    obtain ⟨first, more, split⟩ := List.exists_cons_of_ne_nil nonempty
    rw [← List.append_assoc, split]
    rfl
  have signed : scanSign (numeral.sign.bytes ++ (numeral.digits ++ rest)) =
      (numeral.sign, numeral.digits ++ rest) := by
    have alone := scanSign_bytes_append numeral.sign digits
    cases signEq : numeral.sign with
    | plus => rfl
    | minus => rfl
    | none =>
        rw [signEq] at alone
        cases digitsEq : numeral.digits with
        | nil => exact absurd digitsEq numeral.nonempty
        | cons digit more =>
            rw [digitsEq] at alone
            simp only [Sign.bytes, List.nil_append, List.cons_append, scanSign] at alone ⊢
            split at alone
            · cases alone
            · split at alone
              · cases alone
              · rename_i notPlus notMinus
                rw [if_neg notPlus, if_neg notMinus]
  rw [scan, Numeral.bytes, List.append_assoc, List.append_assoc,
    dropWhile_isSpace numeral.isSpace starts, signed]
  simp only
  rw [List.takeWhile_append_of_pos digits, List.dropWhile_append_of_pos digits]
  cases rest with
  | nil => simp
  | cons byte rest =>
      have other : ¬isDigit byte = true := by simp [stops byte rfl]
      rw [List.takeWhile_cons_of_neg other, List.dropWhile_cons_of_neg other, List.append_nil]

/-- What a text begins with, by its scan. -/
theorem begins_iff {bytes rest : List UInt8} {value : Int} :
    Begins bytes value rest ↔
      (scan bytes).digits ≠ [] ∧ rest = (scan bytes).rest ∧
        value = (scan bytes).sign.apply (magnitude (scan bytes).digits) := by
  constructor
  · rintro ⟨spelled, rfl, ⟨numeral, rfl, rfl⟩, stops⟩
    rw [scan_append numeral stops]
    exact ⟨numeral.nonempty, rfl, rfl⟩
  · rintro ⟨nonempty, rfl, rfl⟩
    let numeral : Numeral := {
      space := bytes.takeWhile isSpace
      sign := (scan bytes).sign
      digits := (scan bytes).digits
      isSpace := fun byte member => List.mem_takeWhile_imp member
      isDigit := fun byte member => List.mem_takeWhile_imp member
      nonempty := nonempty }
    refine ⟨numeral.bytes, ?_, ⟨numeral, rfl, rfl⟩, ?_⟩
    · have whole : (scan bytes).digits ++ (scan bytes).rest =
          (scanSign (bytes.dropWhile isSpace)).2 := List.takeWhile_append_dropWhile
      calc
        bytes = bytes.takeWhile isSpace ++ bytes.dropWhile isSpace :=
          List.takeWhile_append_dropWhile.symm
        _ = bytes.takeWhile isSpace ++ ((scan bytes).sign.bytes ++
            ((scan bytes).digits ++ (scan bytes).rest)) := by
          rw [whole, scan, bytes_append_scanSign]
        _ = numeral.bytes ++ (scan bytes).rest := by
          simp only [Numeral.bytes, numeral, List.append_assoc]
    · intro byte head
      have stops := List.head?_dropWhile_not isDigit (scanSign (bytes.dropWhile isSpace)).2
      rw [show (scan bytes).rest = (scanSign (bytes.dropWhile isSpace)).2.dropWhile isDigit from rfl]
        at head
      rw [head] at stops
      simpa using stops

/-- A text that ends behind its numeral is one. -/
theorem begins_nil_iff {bytes : List UInt8} {value : Int} :
    Begins bytes value [] ↔ Denotes bytes value := by
  rw [begins_iff, denotes_iff]
  constructor
  · rintro ⟨nonempty, ends, valueEq⟩
    exact ⟨nonempty, ends.symm, valueEq⟩
  · rintro ⟨nonempty, ends, valueEq⟩
    exact ⟨nonempty, ends.symm, valueEq⟩

end CExamples.Number
