import Mathlib.Data.List.Basic

/-!
# Semaphores and pipes

The two resources through which processes meet.  A semaphore is a counter, and a
wait on zero is disabled.  A pipe is a queue of bounded length; a transfer moves
some of the requested letters, at least one, and is disabled when none fits or
none is there.  Transfers that are not split move all letters or what is there.
-/

namespace CExamples.Transition

universe u

variable {β : Type u}

/-- `sem_wait`: the counter after it, unless it has to wait. -/
def semWait : Nat → Option Nat
  | 0 => none
  | count + 1 => some count

@[simp]
theorem semWait_eq_some {before after : Nat} :
    semWait before = some after ↔ before = after + 1 := by
  cases before <;> simp [semWait]

/-- A `write` of `count` of the letters `data`: the pipe after it and the letters
left to write. -/
def push (capacity : Nat) (pipe data : List β) (count : Nat) : Option (List β × List β) :=
  if 0 < count ∧ count ≤ data.length ∧ pipe.length + count ≤ capacity then
    some (pipe ++ data.take count, data.drop count)
  else
    none

/-- A `read` that gets `count` of the `wanted` letters: what it gets and the pipe
after it. -/
def pull (pipe : List β) (wanted count : Nat) : Option (List β × List β) :=
  if 0 < count ∧ count ≤ wanted ∧ count ≤ pipe.length then
    some (pipe.take count, pipe.drop count)
  else
    none

/-- A `write` that is not split: all of the letters `data`, or none while there is
no room for them. -/
def pushWhole (capacity : Nat) (pipe data : List β) : Option (List β) :=
  if pipe.length + data.length ≤ capacity then some (pipe ++ data) else none

/-- A `read` that takes what is there, up to the `wanted` letters.  It waits at an
empty pipe with a writer, and gets nothing at an empty pipe without one. -/
def pullUpTo (writer : Bool) (pipe : List β) (wanted : Nat) : Option (List β × List β) :=
  if pipe = [] ∧ writer = true then none else some (pipe.take wanted, pipe.drop wanted)

@[simp]
theorem pushWhole_eq_some {capacity : Nat} {pipe data pipe' : List β} :
    pushWhole capacity pipe data = some pipe' ↔
      pipe.length + data.length ≤ capacity ∧ pipe' = pipe ++ data := by
  unfold pushWhole
  split <;> simp [*, eq_comm]

@[simp]
theorem pullUpTo_eq_some {writer : Bool} {wanted : Nat} {pipe got pipe' : List β} :
    pullUpTo writer pipe wanted = some (got, pipe') ↔
      (pipe = [] → writer = false) ∧ got = pipe.take wanted ∧ pipe' = pipe.drop wanted := by
  unfold pullUpTo
  split <;> simp_all [eq_comm]

/-- Without a writer a `read` does not wait. -/
@[simp]
theorem pullUpTo_false (pipe : List β) (wanted : Nat) :
    pullUpTo false pipe wanted = some (pipe.take wanted, pipe.drop wanted) := by
  simp [pullUpTo]

/-- Writing loses no letters and keeps their order. -/
theorem append_of_push {capacity count : Nat} {pipe data pipe' data' : List β}
    (pushed : push capacity pipe data count = some (pipe', data')) :
    pipe' ++ data' = pipe ++ data := by
  unfold push at pushed
  split at pushed
  · cases pushed
    rw [List.append_assoc, List.take_append_drop]
  · cases pushed

/-- What is left to write is shorter than before. -/
theorem suffix_of_push {capacity count : Nat} {pipe data pipe' data' : List β}
    (pushed : push capacity pipe data count = some (pipe', data')) :
    data' <:+ data ∧ data'.length < data.length := by
  unfold push at pushed
  split at pushed
  · rename_i bounds
    cases pushed
    refine ⟨List.drop_suffix count data, ?_⟩
    rw [List.length_drop]
    omega
  · cases pushed

/-- Where there is room a letter can be written. -/
theorem exists_push {capacity : Nat} {pipe data : List β} (nonempty : data ≠ [])
    (room : pipe.length < capacity) :
    ∃ count pipe' data', push capacity pipe data count = some (pipe', data') := by
  have positive := List.length_pos_iff.mpr nonempty
  exact ⟨1, _, _, if_pos ⟨Nat.one_pos, positive, room⟩⟩

/-- Reading takes letters off the front. -/
theorem append_of_pull {wanted count : Nat} {pipe got pipe' : List β}
    (pulled : pull pipe wanted count = some (got, pipe')) :
    got ++ pipe' = pipe ∧ got ≠ [] ∧ got.length ≤ wanted := by
  unfold pull at pulled
  split at pulled
  · rename_i bounds
    cases pulled
    refine ⟨List.take_append_drop count pipe, ?_, ?_⟩
    · rw [← List.length_pos_iff, List.length_take]
      omega
    · rw [List.length_take]
      omega
  · cases pulled

/-- A letter that is there can be read. -/
theorem exists_pull {wanted : Nat} {pipe : List β} (wants : 0 < wanted) (nonempty : pipe ≠ []) :
    ∃ count got pipe', pull pipe wanted count = some (got, pipe') := by
  have positive := List.length_pos_iff.mpr nonempty
  exact ⟨1, _, _, if_pos ⟨Nat.one_pos, wants, positive⟩⟩

end CExamples.Transition
