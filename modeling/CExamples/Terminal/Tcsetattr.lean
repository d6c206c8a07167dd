import CExamples.Program.Passes
import CExamples.Word.CString
import Mathlib.Data.UInt

/-!
# Echoing a line

`terminal/tcsetattr/main.c`.  Every `read` stores one byte into the lowest byte of the
`int` that is called `ch`, and the loop compares the whole `int` with the newline.  The
upper bytes stay as they were before, and at the end of the input the loop goes on.
-/

namespace CExamples.Terminal.Tcsetattr

open CExamples.Program
open CExamples.Word

/-- `ch` after a byte was stored at `&ch`. -/
def storeLow (ch : UInt32) (byte : UInt8) : UInt32 :=
  UInt32.ofNat (ch.toNat / 256 * 256 + byte.toNat)

/-- `ch`, the input that is left, and what was printed. -/
structure State where
  ch : UInt32
  input : List UInt8
  printed : List UInt8
  deriving DecidableEq

/-- One pass of the `while(1)` loop. -/
def pass (state : State) : Pass State State :=
  match state.input with
  | [] => .again state
  | byte :: rest =>
      let ch := storeLow state.ch byte
      if ch = 10 then .left { state with ch := ch, input := rest }
      else .again { ch := ch, input := rest, printed := state.printed ++ [ch.toUInt8] }

/-- `main` before the loop, where the first `read` gets `first` or returns 0. -/
def start (ch : UInt32) (first : Option UInt8) (input : List UInt8) : State :=
  match first with
  | some byte =>
      { ch := storeLow ch byte
        input := input
        printed := ascii "Type the first character: " ++ [(storeLow ch byte).toUInt8, 10] ++
          ascii "Type the rest of the characters: " }
  | none =>
      { ch := ch
        input := input
        printed := ascii "Type the first character: " ++
          ascii "Type the rest of the characters: " }

/-- `main`, with at most `fuel` passes of the loop. -/
def main (fuel : Nat) (ch : UInt32) (first : Option UInt8) (input : List UInt8) : Option State :=
  (passes pass fuel (start ch first input)).map fun after =>
    { after with printed := after.printed ++ [10] }

/-- The loop is left with the input behind the first newline, or behind the end, and has
printed the bytes before. -/
def EchoesLine (ch : UInt32) (first : Option UInt8) (input : List UInt8) : Prop :=
  ∃ fuel after, main fuel ch first input = some after ∧
    after.input = (input.dropWhile (· ≠ 10)).tail ∧
    after.printed = (start ch first input).printed ++ input.takeWhile (· ≠ 10) ++ [10]

/-- The upper bytes of `ch` are zero and a newline is to be read. -/
def Leavable (ch : UInt32) (input : List UInt8) : Prop :=
  ch.toNat < 256 ∧ 10 ∈ input

/-! ## The stored byte -/

section Stored

variable (ch : UInt32) (byte : UInt8)

theorem toNat_storeLow : (storeLow ch byte).toNat = ch.toNat / 256 * 256 + byte.toNat := by
  have wide : ch.toNat < 4294967296 := ch.toNat_lt
  have narrow : byte.toNat < 256 := byte.toNat_lt
  apply UInt32.toNat_ofNat_of_lt'
  rw [UInt32.size]
  omega

/-- The upper bytes stay. -/
theorem storeLow_lt_iff : (storeLow ch byte).toNat < 256 ↔ ch.toNat < 256 := by
  have narrow : byte.toNat < 256 := byte.toNat_lt
  rw [toNat_storeLow]
  omega

/-- The byte is printed as it was read. -/
@[simp]
theorem toUInt8_storeLow : (storeLow ch byte).toUInt8 = byte := by
  have narrow : byte.toNat < 256 := byte.toNat_lt
  apply UInt8.toNat_inj.mp
  rw [UInt32.toNat_toUInt8, toNat_storeLow]
  change (ch.toNat / 256 * 256 + byte.toNat) % 256 = byte.toNat
  omega

/-- The comparison with the newline looks at the upper bytes too. -/
theorem storeLow_eq_newline_iff : storeLow ch byte = 10 ↔ ch.toNat < 256 ∧ byte = 10 := by
  have ten : UInt32.toNat 10 = 10 := rfl
  have tenByte : UInt8.toNat 10 = 10 := rfl
  have narrow : byte.toNat < 256 := byte.toNat_lt
  rw [← UInt32.toNat_inj, ← UInt8.toNat_inj, toNat_storeLow, ten, tenByte]
  omega

end Stored

/-! ## The loop -/

/-- The loop reads a line and its newline. -/
theorem leaves_line {ch : UInt32} (clean : ch.toNat < 256) {line : List UInt8}
    (noNewline : 10 ∉ line) (rest printed : List UInt8) :
    Leaves pass { ch := ch, input := line ++ 10 :: rest, printed := printed }
      { ch := 10, input := rest, printed := printed ++ line } := by
  induction line generalizing ch printed with
  | nil =>
      have newline : storeLow ch 10 = 10 := (storeLow_eq_newline_iff ch 10).mpr ⟨clean, rfl⟩
      apply Leaves.left
      rw [List.append_nil, List.nil_append, pass]
      simp only [newline, if_true]
  | cons byte line ih =>
      rw [List.mem_cons, not_or] at noNewline
      have other : storeLow ch byte ≠ 10 := by
        intro newline
        exact noNewline.1 ((storeLow_eq_newline_iff ch byte).mp newline).2.symm
      have later := ih ((storeLow_lt_iff ch byte).mpr clean) noNewline.2 (printed ++ [byte])
      rw [List.append_assoc] at later
      apply Leaves.again _ later
      rw [List.cons_append, pass]
      simp only [if_neg other, toUInt8_storeLow]

/-- Without a newline to come, or with a byte in `ch` that no `read` replaces, every pass
goes on. -/
theorem pass_not_leavable {state : State} (endless : ¬Leavable state.ch state.input) :
    ∃ after, pass state = .again after ∧ ¬Leavable after.ch after.input := by
  rcases state with ⟨ch, input, printed⟩
  cases input with
  | nil => exact ⟨_, rfl, endless⟩
  | cons byte rest =>
      have other : storeLow ch byte ≠ 10 := by
        intro newline
        have both := (storeLow_eq_newline_iff ch byte).mp newline
        exact endless ⟨both.1, by rw [both.2]; exact List.mem_cons_self⟩
      refine ⟨_, if_neg other, ?_⟩
      rintro ⟨clean, member⟩
      exact endless ⟨(storeLow_lt_iff ch byte).mp clean, List.mem_cons_of_mem byte member⟩

@[simp]
theorem start_input (ch : UInt32) (first : Option UInt8) (input : List UInt8) :
    (start ch first input).input = input := by
  cases first with
  | none => rfl
  | some byte => rfl

theorem start_leavable_iff (ch : UInt32) (first : Option UInt8) (input : List UInt8) :
    Leavable (start ch first input).ch (start ch first input).input ↔ Leavable ch input := by
  cases first with
  | none => exact Iff.rfl
  | some byte => exact and_congr_left fun _ => storeLow_lt_iff ch byte

/-- A loop that is left could be left. -/
theorem leavable_of_main {fuel : Nat} {ch : UInt32} {first : Option UInt8} {input : List UInt8}
    {after : State} (run : main fuel ch first input = some after) : Leavable ch input := by
  rw [← start_leavable_iff ch first input]
  apply not_not.mp
  intro endless
  rcases Option.map_eq_some_iff.mp run with ⟨result, passed, _⟩
  exact not_leaves (fun _ => pass_not_leavable) endless result ⟨fuel, passed⟩

/-- When the loop echoes a line. -/
theorem echoesLine_iff (ch : UInt32) (first : Option UInt8) (input : List UInt8) :
    EchoesLine ch first input ↔ Leavable ch input := by
  constructor
  · rintro ⟨fuel, after, run, _⟩
    exact leavable_of_main run
  · rw [← start_leavable_iff ch first input]
    rintro ⟨clean, newline⟩
    rw [start_input] at newline
    rcases List.eq_append_cons_of_mem newline with ⟨line, rest, whole, noNewline⟩
    have before : ∀ byte ∈ line, decide (byte ≠ 10) = true := fun byte member =>
      decide_eq_true (ne_of_mem_of_not_mem member noNewline)
    have atLine : start ch first input =
        { ch := (start ch first input).ch
          input := line ++ 10 :: rest
          printed := (start ch first input).printed } := by
      rw [← whole]
      cases first with
      | none => rfl
      | some byte => rfl
    rcases leaves_line clean noNewline rest (start ch first input).printed with ⟨fuel, run⟩
    rw [← atLine] at run
    refine ⟨fuel, _, congrArg (Option.map _) run, ?_, ?_⟩
    · rw [whole, List.dropWhile_append_of_pos before]
      rfl
    · rw [whole, List.takeWhile_append_of_pos before, List.takeWhile_cons_of_neg (by decide),
        List.append_nil]

/-- A line is not echoed when the input ends before its newline, or when an upper byte of
`ch` is not zero. -/
theorem endedInput_spins :
    ¬EchoesLine 0 (some 97) [98] ∧ ¬EchoesLine 256 (some 97) [98, 10] := by
  constructor
  · rintro ⟨fuel, after, run, _⟩
    exact absurd (leavable_of_main run).2 (by decide)
  · rintro ⟨fuel, after, run, _⟩
    exact absurd (leavable_of_main run).1 (by decide)

end CExamples.Terminal.Tcsetattr
