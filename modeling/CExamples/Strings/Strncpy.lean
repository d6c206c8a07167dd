import CExamples.Number.Strtoumax
import CExamples.Program.Array

/-!
# A bounded copy

`strings/strncpy/main.c`.  `main` allocates one byte more than it copies, for the
terminator, but `strncpy` writes no terminator behind a string that fills its bound,
and nothing else does.  The additional byte is also lost when its address computation
wraps, at the largest bound there is.
-/

namespace CExamples.Strings.Strncpy

open CExamples.Number
open CExamples.Program
open CExamples.Word

/-- `malloc`: nothing, or a block of the size asked for with any contents. -/
abbrev Malloc := (size : UInt64) → Option { block : List UInt8 // block.length = size.toNat }

/-- A line on stdout, or a message on stderr. -/
inductive Line
  | source (text : List UInt8)
  | copied (text : List UInt8)
  | perror (message : String)
  deriving DecidableEq

/-- The program, with the lines it has printed. -/
abbrev Run := Prog Empty (List Line)

def print (line : Line) : Run Unit :=
  modify (· ++ [line])

def sizeTRejections : Rejections where
  parsing := .usage "Error parsing size_t."
  invalid := .usage "Invalid characters in input."
  outOfRange := .usage "size_t value out of range."

/-- `parse_size_t` -/
def parseSizeT (str : Text) : Except Rejection UInt64 :=
  parseUnsigned sizeTRejections (UInt64.ofNat (2 ^ 64 - 1)) str

/-- A rejection ends the program with `EXIT_FAILURE`. -/
def orExit {α : Type} : Except Rejection α → Run α
  | .ok value => pure value
  | .error (.perror message) => throw (.exit 1 message)
  | .error (.usage message) => throw (.exit 1 message)
  | .error (.stderr message) => throw (.exit 1 message)

/-- `handle_arguments` -/
def handleArguments (nStr string : Option Text) : Run (UInt64 × Text) :=
  match nStr, string with
  | none, _ => throw (.exit 1 "n is required.")
  | some _, none => throw (.exit 1 "The string is required.")
  | some nStr, some string => do
      let n ← orExit (parseSizeT nStr)
      pure (n, string)

/-- The `n` bytes that `strncpy` writes: the source, and zeros if it is shorter. -/
def padded (source : List UInt8) (n : Nat) : List UInt8 :=
  source.take n ++ List.replicate (n - source.length) 0

/-- `strncpy(destination, source, n)`: the block after it. -/
def strncpy (destination : List UInt8) (source : Text) (n : UInt64) : Run (List UInt8) :=
  storeAll destination 0 (padded source.bytes n.toNat)

/-- The string that `%s` finds in a block; it may not read beyond the block. -/
def formatted (block : List UInt8) : Run (List UInt8) :=
  if 0 ∈ block then pure (cString block) else throw .fault

/-- `main` after its arguments have been split. -/
def main (malloc : Malloc) (nStr string : Option Text) : Run Nat := do
  let (n, string) ← handleArguments nStr string
  match malloc (n + 1) with
  | none =>
      print (.perror "Memory allocation failed\n")
      pure 1
  | some block =>
      let destination ← strncpy block.val string n
      print (.source string.bytes)
      let text ← formatted destination
      print (.copied text)
      pure 0

/-- The copy into `block` stays inside it, leaves the prefix of the source there with a
terminator, and is printed as that prefix. -/
structure Copied (malloc : Malloc) (nStr string : Text) (n : UInt64) (block : List UInt8) :
    Prop where
  holds : ∃ rest, ∀ lines,
    strncpy block string n lines = .ok (string.bytes.take n.toNat ++ 0 :: rest) lines
  prints : main malloc (some nStr) (some string) [] =
    .ok 0 [.source string.bytes, .copied (string.bytes.take n.toNat)]

/-! ## The copy -/

theorem length_padded (source : List UInt8) (n : Nat) : (padded source n).length = n := by
  simp only [padded, List.length_append, List.length_take, List.length_replicate]
  omega

/-- A bound that is larger than the source leaves a terminator. -/
theorem padded_of_lt {source : List UInt8} {n : Nat} (shorter : source.length < n) :
    ∃ zeros, padded source n = source.take n ++ 0 :: zeros := by
  obtain ⟨more, split⟩ := Nat.exists_eq_add_of_lt shorter
  refine ⟨List.replicate more 0, ?_⟩
  rw [padded, show n - source.length = more + 1 by omega, List.replicate_succ]

theorem padded_of_le {source : List UInt8} {n : Nat} (fills : n ≤ source.length) :
    padded source n = source.take n := by
  rw [padded, Nat.sub_eq_zero_of_le fills, List.replicate_zero, List.append_nil]

/-- The bytes that are written and the one behind them hold the prefix with a
terminator. -/
theorem exists_terminated_iff {source : List UInt8} {n : Nat} {last : UInt8} :
    (∃ rest, padded source n ++ [last] = source.take n ++ 0 :: rest) ↔
      source.length < n ∨ last = 0 := by
  by_cases shorter : source.length < n
  · obtain ⟨zeros, split⟩ := padded_of_lt shorter
    refine iff_of_true ⟨zeros ++ [last], ?_⟩ (Or.inl shorter)
    rw [split, List.append_assoc, List.cons_append]
  · rw [padded_of_le (Nat.le_of_not_lt shorter), or_iff_right shorter]
    constructor
    · rintro ⟨rest, split⟩
      exact (List.cons_eq_cons.mp (List.append_cancel_left split)).1
    · rintro rfl
      exact ⟨[], rfl⟩

section Copy

variable {block : List UInt8} {source : Text} {n : UInt64}

/-- Below the largest bound the block has one byte more than is written. -/
theorem length_block (small : n.toNat < 2 ^ 64 - 1) (length : block.length = (n + 1).toNat) :
    block.length = n.toNat + 1 := by
  rw [length, UInt64.toNat_add, UInt64.toNat_one]
  omega

theorem length_block_of_wrap (large : ¬n.toNat < 2 ^ 64 - 1)
    (length : block.length = (n + 1).toNat) : block.length = 0 := by
  have bound := n.toNat_lt
  rw [length, UInt64.toNat_add, UInt64.toNat_one]
  omega

/-- The byte behind those that `strncpy` writes stays as it was. -/
theorem strncpy_eq_pure (source : Text) {last : UInt8} (length : block.length = n.toNat + 1)
    (behind : block[n.toNat]? = some last) :
    strncpy block source n = pure (padded source.bytes n.toNat ++ [last]) := by
  have kept : block.drop n.toNat = [last] := by
    rw [List.drop_eq_getElem?_toList_append, behind, List.drop_of_length_le (by omega)]
    rfl
  rw [strncpy, storeAll_eq_pure _ (by rw [length_padded]; omega), overwrite, length_padded,
    List.take_zero, List.nil_append, Nat.zero_add, kept]

/-- The text of a prefix with a terminator behind it. -/
theorem formatted_eq_pure (source : Text) (n : Nat) (rest : List UInt8) :
    formatted (source.bytes.take n ++ 0 :: rest) = pure (source.bytes.take n) := by
  have noZero : 0 ∉ source.bytes.take n := fun member => source.noZero (List.mem_of_mem_take member)
  rw [formatted, if_pos (by simp), cString_append_zero, cString_eq_self noZero]

end Copy

section Main

variable {malloc : Malloc} {nStr string : Text} {n : UInt64}
  {block : { block : List UInt8 // block.length = (n + 1).toNat }}

/-- What `main` does with the block that it got. -/
theorem main_eq (string : Text) (accepted : parseSizeT nStr = .ok n) (allocated : malloc (n + 1) = some block) :
    main malloc (some nStr) (some string) =
      strncpy block.val string n >>= fun destination => (do
        print (.source string.bytes)
        let text ← formatted destination
        print (.copied text)
        pure 0) := by
  simp only [main, handleArguments, accepted, orExit, pure_bind, allocated]

/-- When the copy is within bounds and printable. -/
theorem copied_iff (accepted : parseSizeT nStr = .ok n)
    (allocated : malloc (n + 1) = some block) :
    Copied malloc nStr string n block.val ↔
      n.toNat < 2 ^ 64 - 1 ∧ (string.bytes.length < n.toNat ∨ block.val[n.toNat]? = some 0) := by
  have program := main_eq string accepted allocated
  obtain ⟨block, length⟩ := block
  by_cases small : n.toNat < 2 ^ 64 - 1
  · have lengthEq := length_block small length
    have inside : n.toNat < block.length := by omega
    have behind := List.getElem?_eq_getElem inside
    have run := strncpy_eq_pure string lengthEq behind
    simp only [behind, Option.some.injEq, ← exists_terminated_iff, small, true_and]
    constructor
    · rintro ⟨⟨rest, holds⟩, _⟩
      have result := holds []
      rw [run] at result
      exact ⟨rest, (EStateM.Result.ok.inj result).1⟩
    · rintro ⟨rest, terminated⟩
      rw [terminated] at run
      constructor
      · exact ⟨rest, fun lines => congrFun run lines⟩
      · rw [program, run, pure_bind, formatted_eq_pure]
        rfl
  · refine iff_of_false ?_ fun condition => small condition.1
    rintro ⟨⟨rest, holds⟩, _⟩
    have overflows : ¬0 + (padded string.bytes n.toNat).length ≤ block.length := by
      rw [length_padded, length_block_of_wrap small length]
      omega
    have result := holds []
    rw [strncpy, storeAll, if_neg overflows] at result
    cases result

end Main

/-- An allocator that never fails and leaves ones behind. -/
def ones : Malloc :=
  fun size => some ⟨List.replicate size.toNat 1, List.length_replicate⟩

/-- Two letters and a terminator fit into the bound 3. -/
theorem shortSource_copied :
    Copied ones ⟨[51], by decide⟩ ⟨[97, 98], by decide⟩ 3 [1, 1, 1, 1] :=
  (@copied_iff ones ⟨[51], by decide⟩ ⟨[97, 98], by decide⟩ 3 ⟨[1, 1, 1, 1], rfl⟩ rfl rfl).mpr ⟨by decide, Or.inl (by decide)⟩

/-- One letter fills the bound 1, and the byte behind it is no terminator. -/
theorem fullBound_unterminated :
    ones 2 = some ⟨[1, 1], rfl⟩ ∧ parseSizeT ⟨[49], by decide⟩ = .ok 1 ∧
      ¬Copied ones ⟨[49], by decide⟩ ⟨[97], by decide⟩ 1 [1, 1] ∧
      main ones (some ⟨[49], by decide⟩) (some ⟨[97], by decide⟩) [] =
        .error .fault [.source [97]] := by
  have run : main ones (some ⟨[49], by decide⟩) (some ⟨[97], by decide⟩) [] =
      .error .fault [.source [97]] := rfl
  refine ⟨rfl, rfl, ?_, run⟩
  intro copied
  have prints := copied.prints
  rw [run] at prints
  cases prints

end CExamples.Strings.Strncpy
