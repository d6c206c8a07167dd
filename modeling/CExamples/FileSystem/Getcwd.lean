import CExamples.Program.Blocks
import CExamples.Program.Passes
import CExamples.Number.Strtoumax
import Mathlib.Algebra.Ring.Nat
import Mathlib.Algebra.Ring.Int.Defs

/-!
# The name of the current directory

`file-system/chdir/main.c` and `file-system/getcwd/main.c`.  Both allocate a buffer for
`getcwd` and double its size until the name fits, one in `getCurrentWorkingDirectory` and
the other in `main`.  The size is the first one times a power of two, so it passes the
length of the name before it can wrap, and the buffer owns the only block that is not
released.
-/

namespace CExamples.FileSystem.Getcwd

open CExamples.Number
open CExamples.Program

/-- An `errno` other than `ERANGE`. -/
structure OtherError where
  errno : Nat
  other : errno ≠ erange
  deriving DecidableEq

/-- What the environment does in one pass of the loop: whether `realloc` fails, and whether
`getcwd` fails for a reason other than the size. -/
structure Answer where
  reallocFails : Bool
  error : Option OtherError
  deriving DecidableEq

/-- `getcwd(buffer, size)` in a directory whose name has `length` bytes: the `errno` with
which it fails, if it does. -/
def getcwd (length : Nat) (error : Option OtherError) (size : UInt64) : Option Nat :=
  match error with
  | some other => some other.errno
  | none => if length + 1 ≤ size.toNat then none else some erange

/-- A call of `getcwd`: the block at `buffer`, and the size that is passed. -/
structure Call where
  block : Option Block
  size : UInt64
  deriving DecidableEq

/-- The blocks and variables of the loop, with the sizes requested from `realloc` and the
calls of `getcwd`. -/
structure State where
  blocks : List Block
  buffer : Option Nat
  size : UInt64
  requests : List UInt64
  calls : List Call
  deriving DecidableEq

/-- How the loop is left: with a `break`, or with a message of `perror`. -/
inductive Ending
  | broke
  | failed (message : String)
  deriving DecidableEq

/-- One pass of the loop, in which the environment answers with the next of `answers`. -/
def pass (length : Nat) (answers : Nat → Answer) (state : State) : Pass State (State × Ending) :=
  let answer := answers state.requests.length
  let requested := { state with requests := state.requests ++ [state.size] }
  match realloc state.blocks state.buffer state.size answer.reallocFails with
  | (none, blocks) =>
      .left ({ requested with blocks := free blocks state.buffer },
        .failed "Error allocating/reallocating memory for buffer")
  | (some buffer, blocks) =>
      let called := { requested with
        blocks := blocks
        buffer := some buffer
        calls := state.calls ++ [{ block := blocks[buffer]?, size := state.size }] }
      match getcwd length answer.error state.size with
      | none => .left (called, .broke)
      | some errno =>
          if errno = erange then .again { called with size := state.size * 2 }
          else
            .left ({ called with blocks := free blocks (some buffer) },
              .failed "Error getting current working directory")

/-- The variables before the loop: `buffer = NULL` and `size = (size_t)path_max`. -/
def start (blocks : List Block) (pathMax : Int64) : State where
  blocks := blocks
  buffer := none
  size := pathMax.toUInt64
  requests := []
  calls := []

/-- What a function has returned, the blocks afterwards and what it has done. -/
structure Returned (α : Type) where
  value : α
  blocks : List Block
  requests : List UInt64
  calls : List Call

/-- `getCurrentWorkingDirectory` of `chdir`, which returns the block of the name or a null
pointer. -/
def getCurrentWorkingDirectory (length : Nat) (answers : Nat → Answer) (fuel : Nat)
    (blocks : List Block) (pathMax : Int64) : Option (Returned (Option Nat)) := do
  let (state, ending) ← passes (pass length answers) fuel (start blocks pathMax)
  match ending with
  | .broke => pure ⟨state.buffer, state.blocks, state.requests, state.calls⟩
  | .failed _ => pure ⟨none, state.blocks, state.requests, state.calls⟩

/-- `main` of `getcwd`, which prints and releases the name; it returns `EXIT_SUCCESS` or
`EXIT_FAILURE`. -/
def main (length : Nat) (answers : Nat → Answer) (fuel : Nat) (blocks : List Block)
    (pathMax : Int64) : Option (Returned Nat) := do
  let (state, ending) ← passes (pass length answers) fuel (start blocks pathMax)
  match ending with
  | .broke => pure ⟨0, free state.blocks state.buffer, state.requests, state.calls⟩
  | .failed _ => pure ⟨1, state.blocks, state.requests, state.calls⟩

/-- The sizes are doubled without a wrap, and `getcwd` gets the size of the block at
`buffer`, which is allocated. -/
structure Doubles (first : Nat) (requests : List UInt64) (calls : List Call) : Prop where
  sizes : ∀ index size, requests[index]? = some size → size.toNat = first * 2 ^ index
  blocks : ∀ call ∈ calls, call.block = some { size := call.size, releases := 0 }

/-- The invariant of the loop. -/
structure Doubling (first : Nat) (state : State) : Prop where
  doubles : Doubles first state.requests state.calls
  size : state.size.toNat = first * 2 ^ state.requests.length
  holds : Holds state.blocks state.buffer

/-- What the loop leaves: the name in the only allocated block, which is large enough, or
no block. -/
structure Left (length first : Nat) (state : State) (ending : Ending) : Prop where
  doubles : Doubles first state.requests state.calls
  broke : ending = .broke → Holds state.blocks state.buffer ∧
    ∃ number block, state.buffer = some number ∧ state.blocks[number]? = some block ∧
      length + 1 ≤ block.size.toNat
  failed : ending ≠ .broke → Holds state.blocks none

/-! ## One pass -/

section Pass

variable {length first : Nat} {state : State}

theorem Doubling.requested (doubling : Doubling first state) :
    Doubles first (state.requests ++ [state.size]) state.calls where
  sizes := by
    intro index size found
    rcases getElem?_concat_cases found with old | ⟨rfl, rfl⟩
    · exact doubling.doubles.sizes index size old
    · exact doubling.size
  blocks := doubling.doubles.blocks

/-- The call in a pass gets the size of the block that `realloc` has returned. -/
theorem Doubling.called (doubling : Doubling first state) :
    Doubles first (state.requests ++ [state.size])
      (state.calls ++ [{
        block := (free state.blocks state.buffer ++
          [{ size := state.size, releases := 0 }])[state.blocks.length]?
        size := state.size }]) where
  sizes := doubling.requested.sizes
  blocks := by
    intro call member
    rcases List.mem_append.mp member with old | new
    · exact doubling.doubles.blocks call old
    · rw [List.mem_singleton.mp new, getElem?_realloc]

/-- A size below `2 ^ 63` is doubled without a wrap. -/
theorem toNat_double {size : UInt64} (small : size.toNat < 2 ^ 63) :
    (size * 2).toNat = size.toNat * 2 := by
  have two : UInt64.toNat 2 = 2 := rfl
  rw [UInt64.toNat_mul, two]
  exact Nat.mod_eq_of_lt (by omega)

/-- A call fails for its size only below `2 ^ 63`. -/
theorem getcwd_eq_erange (fits : length + 1 ≤ 2 ^ 63) {error : Option OtherError} {size : UInt64}
    (range : getcwd length error size = some erange) : size.toNat < 2 ^ 63 := by
  cases error with
  | some other => exact absurd (Option.some.inj range) other.other
  | none =>
      rw [getcwd] at range
      split at range
      · cases range
      · omega

theorem getcwd_eq_none {error : Option OtherError} {size : UInt64}
    (succeeds : getcwd length error size = none) : length + 1 ≤ size.toNat := by
  cases error with
  | some other => cases succeeds
  | none =>
      rw [getcwd] at succeeds
      split at succeeds
      · assumption
      · cases succeeds

/-- A pass leaves the loop or keeps the invariant. -/
theorem Doubling.pass (fits : length + 1 ≤ 2 ^ 63) (doubling : Doubling first state)
    (answers : Nat → Answer) :
    (∃ result, Getcwd.pass length answers state = .left result ∧
        Left length first result.1 result.2) ∨
      ∃ after, Getcwd.pass length answers state = .again after ∧ Doubling first after ∧
        after.requests.length = state.requests.length + 1 := by
  have holds := doubling.holds.realloc state.size
  rw [Getcwd.pass, Program.realloc]
  cases (answers state.requests.length).reallocFails with
  | true =>
      refine Or.inl ⟨_, rfl, ?_⟩
      constructor
      · exact doubling.requested
      · intro broke
        cases broke
      · exact fun _ => doubling.holds.free
  | false =>
      simp only [Bool.false_eq_true, if_false]
      cases result : getcwd length (answers state.requests.length).error state.size with
      | none =>
          refine Or.inl ⟨_, rfl, ?_⟩
          constructor
          · exact doubling.called
          · intro _
            exact ⟨holds, _, _, rfl, getElem?_realloc _ _ _, getcwd_eq_none result⟩
          · intro notBroke
            exact absurd rfl notBroke
      | some errno =>
          by_cases range : errno = erange
          · simp only [if_pos range]
            rw [range] at result
            have small := getcwd_eq_erange fits result
            refine Or.inr ⟨_, rfl, ?_, ?_⟩
            · constructor
              · exact doubling.called
              · simp only [List.length_append, List.length_singleton]
                rw [toNat_double small, doubling.size, Nat.pow_succ, Nat.mul_assoc]
              · exact holds
            · simp only [List.length_append, List.length_singleton]
          · simp only [if_neg range]
            refine Or.inl ⟨_, rfl, ?_⟩
            constructor
            · exact doubling.called
            · intro broke
              cases broke
            · exact fun _ => holds.free

/-- There are at most 64 passes, since after them the size would have wrapped. -/
theorem Doubling.few (doubling : Doubling first state) (positive : 1 ≤ first) :
    state.requests.length < 64 := by
  apply Nat.lt_of_not_le
  intro many
  have large : 2 ^ 64 ≤ first * 2 ^ state.requests.length :=
    calc
      2 ^ 64 ≤ 2 ^ state.requests.length := Nat.pow_le_pow_right (by decide) many
      _ ≤ first * 2 ^ state.requests.length := Nat.le_mul_of_pos_left _ positive
  rw [← doubling.size] at large
  exact absurd state.size.toNat_lt (Nat.not_lt.mpr large)

end Pass

/-! ## The loop -/

theorem doubling_start {blocks : List Block} (holds : Holds blocks none) (pathMax : Int64) :
    Doubling pathMax.toUInt64.toNat (start blocks pathMax) where
  doubles := ⟨fun _ _ found => (nomatch found), fun _ member => (nomatch member)⟩
  size := (Nat.mul_one _).symm
  holds := holds

/-- The number of passes that are left bounds the loop. -/
theorem exists_left {length first : Nat} (fits : length + 1 ≤ 2 ^ 63) (positive : 1 ≤ first)
    (answers : Nat → Answer) {state : State} (doubling : Doubling first state) :
    ∃ result, Leaves (pass length answers) state result ∧ Left length first result.1 result.2 := by
  apply exists_leaves (fun state : State => 64 - state.requests.length) _ doubling
  intro state doubling
  have few := doubling.few positive
  rcases doubling.pass fits answers with left | ⟨after, passed, kept, longer⟩
  · exact Or.inl left
  · exact Or.inr ⟨after, passed, kept, by omega⟩

theorem toNat_pathMax {pathMax : Int64} (positive : 1 ≤ pathMax) :
    (pathMax.toUInt64.toNat : Int) = pathMax.toInt := by
  have nonneg : 0 ≤ pathMax := Int64.le_trans (by decide) positive
  rw [Int64.toNat_toUInt64_of_le nonneg]
  exact Int.toNat_of_nonneg (Int64.le_iff_toInt_le.mp nonneg)

/-- The size never wraps while it is doubled, every call of `getcwd` gets the size of the
block at `buffer`, and the block at `pointer`, which is large enough, is the only one still
allocated. -/
structure EndsWith (length : Nat) (pathMax : Int64) (pointer : Option Nat) {α : Type}
    (returned : Returned α) : Prop where
  sizes : ∀ index size, returned.requests[index]? = some size →
    (size.toNat : Int) = pathMax.toInt * 2 ^ index
  calls : ∀ call ∈ returned.calls, call.block = some { size := call.size, releases := 0 }
  holds : Holds returned.blocks pointer
  large : ∀ number, pointer = some number →
    ∃ block, returned.blocks[number]? = some block ∧ length + 1 ≤ block.size.toNat

end CExamples.FileSystem.Getcwd
