import Mathlib.Logic.Function.Basic

/-!
# Descriptor tables

A descriptor table maps the open descriptors of a process to what they refer to.  The
kernel picks a descriptor that is not in use for a new entry, or refuses; two
descriptors may refer to the same file.  Closing a new descriptor gives the table
back as it was.
-/

namespace CExamples.Program

universe u

/-- What each open descriptor refers to. -/
abbrev Table (δ : Type u) := Nat → Option δ

namespace Table

variable {δ : Type u}

/-- The descriptor `fd` refers to `file`. -/
def install (table : Table δ) (fd : Nat) (file : δ) : Table δ :=
  Function.update table fd (some file)

/-- A new descriptor for `file`: the one that the kernel picks, if it is not in use. -/
def allocate (table : Table δ) (pick : Option Nat) (file : δ) : Option (Nat × Table δ) :=
  match pick with
  | none => none
  | some fd => if table fd = none then some (fd, table.install fd file) else none

/-- `dup(old)` -/
def dup (table : Table δ) (old : Nat) (pick : Option Nat) : Option (Nat × Table δ) :=
  (table old).bind (table.allocate pick)

/-- `dup2(old, new)` -/
def dup2 (table : Table δ) (old new : Nat) : Option (Table δ) :=
  (table old).map (table.install new)

/-- `close(fd)` -/
def close (table : Table δ) (fd : Nat) : Option (Table δ) :=
  (table fd).map fun _ => Function.update table fd none

variable {table table' : Table δ} {fd other : Nat} {file : δ}

@[simp]
theorem install_self : table.install fd file fd = some file :=
  Function.update_self ..

@[simp]
theorem install_of_ne (apart : other ≠ fd) : table.install fd file other = table other :=
  Function.update_of_ne apart ..

/-- Only the last file counts. -/
@[simp]
theorem install_install (later : δ) :
    (table.install fd file).install fd later = table.install fd later :=
  Function.update_idem ..

theorem install_eq_self (opened : table fd = some file) : table.install fd file = table := by
  rw [install, ← opened, Function.update_eq_self]

theorem allocate_eq_some {pick : Option Nat} {new : Nat} :
    table.allocate pick file = some (new, table') ↔
      pick = some new ∧ table new = none ∧ table' = table.install new file := by
  cases pick with
  | none => simp [allocate]
  | some fd =>
      by_cases free : table fd = none
      · simp only [allocate, if_pos free, Option.some.injEq, Prod.mk.injEq]
        constructor
        · rintro ⟨rfl, rfl⟩
          exact ⟨rfl, free, rfl⟩
        · rintro ⟨rfl, _, rfl⟩
          exact ⟨rfl, rfl⟩
      · simp only [allocate, if_neg free, Option.some.injEq, reduceCtorEq, false_iff]
        rintro ⟨rfl, used, _⟩
        exact free used

theorem dup_eq_some {old new : Nat} {pick : Option Nat} :
    table.dup old pick = some (new, table') ↔
      ∃ file, table old = some file ∧ pick = some new ∧ table new = none ∧
        table' = table.install new file := by
  simp only [dup, Option.bind_eq_some_iff, allocate_eq_some]

theorem dup2_of_open {new : Nat} (opened : table fd = some file) :
    table.dup2 fd new = some (table.install new file) := by
  rw [dup2, opened]
  rfl

theorem close_of_open (opened : table fd = some file) :
    table.close fd = some (Function.update table fd none) := by
  rw [close, opened]
  rfl

/-- Closing a new descriptor undoes its opening. -/
theorem close_install (free : table fd = none) : (table.install fd file).close fd = some table := by
  rw [close_of_open install_self, install, Function.update_idem, ← free, Function.update_eq_self]

end Table

end CExamples.Program
