import Mathlib.Data.List.Basic

/-!
# Allocated blocks

A block is known by its number, counts how often it has been released, and never moves:
`realloc` allocates another block and releases the old one, or fails and leaves it.  A
pointer holds the blocks if it owns the one that is not released and every other block is
released exactly once.
-/

namespace CExamples.Program

/-- A block that was allocated. -/
structure Block where
  size : UInt64
  releases : Nat
  deriving DecidableEq

/-- `free(pointer)`, which does nothing for a null pointer. -/
def free (blocks : List Block) : Option Nat → List Block
  | none => blocks
  | some number =>
      blocks.modify number fun block => { block with releases := block.releases + 1 }

/-- `realloc(pointer, size)`, and the blocks after it. -/
def realloc (blocks : List Block) (pointer : Option Nat) (size : UInt64) (fails : Bool) :
    Option Nat × List Block :=
  if fails then (none, blocks)
  else (some blocks.length, free blocks pointer ++ [{ size := size, releases := 0 }])

/-- The block at `pointer`, if any, is the only one still allocated, and every other block
has been released exactly once. -/
structure Holds (blocks : List Block) (pointer : Option Nat) : Prop where
  allocated : ∀ number, pointer = some number → number < blocks.length
  releases : ∀ number block, blocks[number]? = some block →
    block.releases = if pointer = some number then 0 else 1

/-- An item of a list with one more item is an old one or the new one. -/
theorem getElem?_concat_cases {α : Type*} {items : List α} {last item : α} {index : Nat}
    (found : (items ++ [last])[index]? = some item) :
    items[index]? = some item ∨ index = items.length ∧ item = last := by
  rcases Nat.lt_or_ge index items.length with old | new
  · rw [List.getElem?_append_left old] at found
    exact Or.inl found
  · rw [List.getElem?_append_right new, List.getElem?_singleton] at found
    split at found
    · rename_i zero
      cases found
      exact Or.inr ⟨Nat.le_antisymm (Nat.le_of_sub_eq_zero zero) new, rfl⟩
    · cases found

variable {blocks : List Block} {pointer : Option Nat}

theorem holds_nil : Holds [] none where
  allocated := fun _ some => nomatch some
  releases := fun _ _ found => nomatch found

@[simp]
theorem length_free (blocks : List Block) (pointer : Option Nat) :
    (free blocks pointer).length = blocks.length := by
  cases pointer with
  | none => rfl
  | some number => exact List.length_modify _ _ _

/-- Releasing the last block leaves none allocated. -/
theorem Holds.free (holds : Holds blocks pointer) : Holds (free blocks pointer) none where
  allocated := fun _ some => nomatch some
  releases := by
    intro number block found
    cases pointer with
    | none => exact holds.releases number block found
    | some owned =>
        rw [Program.free, List.getElem?_modify] at found
        rcases Option.map_eq_some_iff.mp found with ⟨before, foundBefore, rfl⟩
        have count := holds.releases number before foundBefore
        by_cases same : owned = number
        · rw [if_pos (congrArg some same)] at count
          simp [same, count]
        · rw [if_neg fun equal => same (Option.some.inj equal)] at count
          simp [same, count]

/-- The new block replaces the old one. -/
theorem Holds.realloc (holds : Holds blocks pointer) (size : UInt64) :
    Holds (Program.free blocks pointer ++ [{ size := size, releases := 0 }])
      (some blocks.length) where
  allocated := by
    intro number equal
    cases equal
    rw [List.length_append, length_free]
    exact Nat.lt_succ_self _
  releases := by
    intro number block found
    rcases getElem?_concat_cases found with old | ⟨rfl, rfl⟩
    · have inside : number < blocks.length := by
        rw [← length_free blocks pointer]
        exact (List.getElem?_eq_some_iff.mp old).1
      rw [if_neg fun equal => absurd (Option.some.inj equal) (Nat.ne_of_gt inside)]
      exact holds.free.releases number block old
    · rw [length_free, if_pos rfl]

/-- The block that `realloc` returns. -/
theorem getElem?_realloc (blocks : List Block) (pointer : Option Nat) (block : Block) :
    (free blocks pointer ++ [block])[blocks.length]? = some block := by
  rw [← length_free blocks pointer, List.getElem?_concat_length]

end CExamples.Program
