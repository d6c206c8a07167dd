import CExamples.Program.Core

/-!
# Checked arrays

A block of memory is the list of its slots.  Reading or writing outside the
block is a fault.  A reallocated block keeps the old slots that fit and fills
the others with indeterminate contents.
-/

namespace CExamples.Program

universe u

variable {κ σ α : Type u}

/-- Read slot `index`. -/
def load (slots : List α) (index : Nat) : Prog κ σ α :=
  match slots[index]? with
  | some value => pure value
  | none => throw .fault

/-- Write slot `index`. -/
def store (slots : List α) (index : Nat) (value : α) : Prog κ σ (List α) :=
  if index < slots.length then pure (slots.set index value) else throw .fault

/-- The slots after `values` were written from `offset` on. -/
def overwrite (slots : List α) (offset : Nat) (values : List α) : List α :=
  slots.take offset ++ values ++ slots.drop (offset + values.length)

/-- Write consecutive slots from `offset` on. -/
def storeAll (slots : List α) (offset : Nat) (values : List α) : Prog κ σ (List α) :=
  if offset + values.length ≤ slots.length then pure (overwrite slots offset values)
  else throw .fault

/-- The slots of a block resized to `count` slots, where `junk` is what the
allocator leaves in the new ones. -/
def resize (slots : List α) (count : Nat) (junk : Nat → α) : List α :=
  slots.take count ++ (List.range' slots.length (count - slots.length)).map junk

theorem load_eq_pure {slots : List α} {index : Nat} {value : α}
    (slot : slots[index]? = some value) :
    (load slots index : Prog κ σ α) = pure value := by
  simp only [load, slot]

theorem store_eq_pure {slots : List α} {index : Nat} (value : α)
    (inside : index < slots.length) :
    (store slots index value : Prog κ σ (List α)) = pure (slots.set index value) :=
  if_pos inside

theorem storeAll_eq_pure {slots : List α} {offset : Nat} (values : List α)
    (inside : offset + values.length ≤ slots.length) :
    (storeAll slots offset values : Prog κ σ (List α)) = pure (overwrite slots offset values) :=
  if_pos inside

@[simp]
theorem overwrite_nil (slots : List α) (offset : Nat) : overwrite slots offset [] = slots := by
  simp [overwrite]

theorem length_overwrite {slots values : List α} {offset : Nat}
    (inside : offset + values.length ≤ slots.length) :
    (overwrite slots offset values).length = slots.length := by
  simp only [overwrite, List.length_append, List.length_take, List.length_drop]
  omega

/-- Values of the same number replace a part in the middle. -/
theorem overwrite_append {front old values : List α} {offset : Nat} (back : List α)
    (position : front.length = offset) (same : old.length = values.length) :
    overwrite (front ++ (old ++ back)) offset values = front ++ (values ++ back) := by
  rw [overwrite, ← position, ← same, ← List.drop_drop, List.take_left, List.drop_left,
    List.drop_left, List.append_assoc]

/-- Two writes of adjacent runs are one write. -/
theorem overwrite_overwrite {slots first : List α} {offset : Nat} (second : List α)
    (inside : offset + first.length ≤ slots.length) :
    overwrite (overwrite slots offset first) (offset + first.length) second =
      overwrite slots offset (first ++ second) := by
  have lengthEq : (slots.take offset ++ first).length = offset + first.length := by
    rw [List.length_append, List.length_take]
    omega
  simp only [overwrite]
  rw [← lengthEq, List.take_left, ← List.drop_drop, List.drop_left, List.drop_drop, lengthEq,
    List.length_append, Nat.add_assoc, List.append_assoc _ first second]

/-- Growing a block keeps its slots in place. -/
theorem resize_of_le {slots : List α} {count : Nat} (junk : Nat → α)
    (grows : slots.length ≤ count) :
    resize slots count junk =
      slots ++ (List.range' slots.length (count - slots.length)).map junk := by
  rw [resize, List.take_of_length_le grows]

/-- The same for two blocks with an offset of one between their indices. -/
theorem forRange_store_pair {β : Type u} (value : α) (value' : β) (count : Nat)
    {kept junk : List α} {kept' junk' : List β} (offset : kept'.length = kept.length + 1)
    (length_junk : junk.length = count) (length_junk' : junk'.length = count) :
    (forRange (fun index (slots, slots') => do
        let slots ← store slots index value
        let slots' ← store slots' (index + 1) value'
        pure (slots, slots')) count kept.length (kept ++ junk, kept' ++ junk') :
      Prog κ σ (List α × List β)) =
      pure (kept ++ List.replicate count value, kept' ++ List.replicate count value') := by
  induction count generalizing kept junk kept' junk' with
  | zero =>
      simp [forRange, List.length_eq_zero_iff.mp length_junk,
        List.length_eq_zero_iff.mp length_junk']
  | succ count ih =>
      obtain ⟨first, junk, rfl⟩ := List.exists_cons_of_length_eq_add_one length_junk
      obtain ⟨first', junk', rfl⟩ := List.exists_cons_of_length_eq_add_one length_junk'
      have stored : (kept ++ first :: junk).set kept.length value =
          (kept ++ [value]) ++ junk := by
        simp
      have stored' : (kept' ++ first' :: junk').set (kept.length + 1) value' =
          (kept' ++ [value']) ++ junk' := by
        simp [← offset]
      have next := @ih (kept ++ [value]) junk (kept' ++ [value']) junk' (by simpa using offset)
        (by simpa using length_junk) (by simpa using length_junk')
      rw [List.length_append, List.length_singleton] at next
      simp only [forRange]
      rw [store_eq_pure value (by simp), pure_bind, store_eq_pure value' (by simp [offset]),
        pure_bind, pure_bind, stored, stored', next, List.replicate_succ, List.replicate_succ]
      simp

end CExamples.Program
