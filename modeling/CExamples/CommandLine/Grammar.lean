import CExamples.CommandLine.Getopt
import CExamples.Program.Passes

/-!
# How a command line is read

A grammar of command lines: the answers that the scanner gives for the arguments, in
order, and the operands that are left.  Every command line has a reading, and a loop
that deals with the answers of the scanner, until one of them ends it, deals with those
of the reading.
-/

namespace CExamples.CommandLine

open CExamples.Program
open CExamples.Word

/-- How a letter is read with the letters and the arguments behind it, and what is left
of these. -/
inductive LetterReads (optstring : List UInt8) (letter : UInt8) :
    Text → List Text → Answer → Text → List Text → Prop
  | unknown {more : Text} {after : List Text} (undeclared : declared optstring letter = none) :
      LetterReads optstring letter more after (.question letter) more after
  | flag {more : Text} {after : List Text} (known : declared optstring letter = some false) :
      LetterReads optstring letter more after (.option letter none) more after
  /-- The value stands behind the letter. -/
  | attached {more : Text} {after : List Text} (known : declared optstring letter = some true)
      (value : more.bytes ≠ []) :
      LetterReads optstring letter more after (.option letter (some more)) Text.empty after
  /-- The value is the next argument. -/
  | separate {more value : Text} {after : List Text}
      (known : declared optstring letter = some true) (last : more.bytes = []) :
      LetterReads optstring letter more (value :: after) (.option letter (some value)) Text.empty
        after
  | missing {more : Text} (known : declared optstring letter = some true)
      (last : more.bytes = []) :
      LetterReads optstring letter more [] (.question letter) Text.empty []

/-- How an argument that names a long option is read with the arguments behind it, and
what is left of these. -/
inductive NameReads (table : List LongOption) (arg : Text) :
    List Text → Answer → List Text → Prop
  | unknown {after : List Text} (undeclared : lookup table (longName arg) = none) :
      NameReads table arg after (.question 0) after
  | flag {option : LongOption} {after : List Text}
      (known : lookup table (longName arg) = some option) (takes : option.takesValue = false)
      (bare : longValue arg = none) :
      NameReads table arg after (.option option.val none) after
  | refused {option : LongOption} {value : Text} {after : List Text}
      (known : lookup table (longName arg) = some option) (takes : option.takesValue = false)
      (given : longValue arg = some value) :
      NameReads table arg after (.question option.val) after
  | attached {option : LongOption} {value : Text} {after : List Text}
      (known : lookup table (longName arg) = some option) (takes : option.takesValue = true)
      (given : longValue arg = some value) :
      NameReads table arg after (.option option.val (some value)) after
  | separate {option : LongOption} {value : Text} {after : List Text}
      (known : lookup table (longName arg) = some option) (takes : option.takesValue = true)
      (bare : longValue arg = none) :
      NameReads table arg (value :: after) (.option option.val (some value)) after
  | missing {option : LongOption} (known : lookup table (longName arg) = some option)
      (takes : option.takesValue = true) (bare : longValue arg = none) :
      NameReads table arg [] (.question option.val) []

/-- An argument of options. -/
def IsOption (arg : Text) : Prop :=
  ¬IsOperand arg ∧ arg.bytes ≠ [dash, dash]

/-- An argument names a long option of a table. -/
def Names (options : Options) (arg : Text) (table : List LongOption) : Prop :=
  options.long = some table ∧ Text.first (arg.bytes.drop 1) = dash

/-- The answers for the letters that are left of an argument and the arguments behind
it, and the operands. -/
inductive Reads (order : Order) (options : Options) :
    Text → List Text → List Answer → List Text → Prop
  | ends : Reads order options Text.empty [] [] []
  | dashes {arg : Text} {operands : List Text} (isDashes : arg.bytes = [dash, dash]) :
      Reads order options Text.empty (arg :: operands) [] operands
  | stops {arg : Text} {after : List Text} (posix : order = .posix) (operand : IsOperand arg) :
      Reads order options Text.empty (arg :: after) [] (arg :: after)
  | passes {arg : Text} {after operands : List Text} {answers : List Answer}
      (permute : order = .permute) (operand : IsOperand arg)
      (reads : Reads order options Text.empty after answers operands) :
      Reads order options Text.empty (arg :: after) answers (arg :: operands)
  | opens {arg : Text} {after operands : List Text} {answers : List Answer}
      (option : IsOption arg) (short : ∀ table, ¬Names options arg table)
      (reads : Reads order options (arg.drop 1) after answers operands) :
      Reads order options Text.empty (arg :: after) answers operands
  | letter {letters more : Text} {letter : UInt8} {behind : List UInt8}
      {after later operands : List Text} {answer : Answer} {answers : List Answer}
      (lettersEq : letters.bytes = letter :: behind)
      (read : LetterReads options.optstring letter (letters.drop 1) after answer more later)
      (reads : Reads order options more later answers operands) :
      Reads order options letters after (answer :: answers) operands
  | long {arg : Text} {table : List LongOption} {after later operands : List Text}
      {answer : Answer} {answers : List Answer} (option : IsOption arg)
      (names : Names options arg table) (read : NameReads table arg after answer later)
      (reads : Reads order options Text.empty later answers operands) :
      Reads order options Text.empty (arg :: after) (answer :: answers) operands

/-! ## The answers of a reading -/

/-- The answer names an option of the program, with a value if the option takes one. -/
def Answer.Valid (options : Options) : Answer → Prop
  | .option letter optarg =>
      declared options.optstring letter = some optarg.isSome ∨
        ∃ table option, options.long = some table ∧ option ∈ table ∧ option.val = letter ∧
          option.takesValue = optarg.isSome
  | .question _ => True

theorem mem_of_lookup {table : List LongOption} {name : List UInt8} {option : LongOption}
    (known : lookup table name = some option) : option ∈ table := by
  rw [lookup] at known
  split at known
  · rename_i exact found
    cases known
    exact List.mem_of_find?_eq_some found
  · split at known
    · cases known
    · rename_i first others matching
      split at known
      · cases known
        have member : option ∈ table.filter (name <+: ·.name) := by
          rw [matching]
          exact List.mem_cons_self
        exact (List.mem_filter.mp member).1
      · cases known

theorem LetterReads.valid {options : Options} {letter : UInt8} {more rest : Text}
    {after later : List Text} {answer : Answer}
    (read : LetterReads options.optstring letter more after answer rest later) :
    answer.Valid options := by
  cases read with
  | unknown | missing => trivial
  | flag known | attached known | separate known => exact Or.inl known

theorem NameReads.valid {options : Options} {table : List LongOption} {arg : Text}
    {after later : List Text} {answer : Answer} (long : options.long = some table)
    (read : NameReads table arg after answer later) : answer.Valid options := by
  cases read with
  | unknown | refused | missing => trivial
  | flag known takes | attached known takes | separate known takes =>
      exact Or.inr ⟨table, _, long, mem_of_lookup known, rfl, takes⟩

theorem Reads.valid {order : Order} {options : Options} {letters : Text}
    {after operands : List Text} {answers : List Answer}
    (reads : Reads order options letters after answers operands) :
    ∀ answer ∈ answers, answer.Valid options := by
  induction reads with
  | ends | dashes | stops => exact fun answer none => absurd none List.not_mem_nil
  | passes _ _ _ ih | opens _ _ _ ih => exact ih
  | letter _ read _ ih => exact List.forall_mem_cons.mpr ⟨read.valid, ih⟩
  | long _ names read _ ih => exact List.forall_mem_cons.mpr ⟨read.valid names.1, ih⟩

/-! ## Every command line has a reading -/

/-- The number of bytes that are left, with the terminators of the arguments. -/
def left (letters : Text) (after : List Text) : Nat :=
  (letters.bytes ++ after.flatMap fun arg : Text => arg.bytes ++ [0]).length

theorem left_cons (letters arg : Text) (after : List Text) :
    left letters (arg :: after) = left letters after + (arg.bytes.length + 1) := by
  simp only [left, List.flatMap_cons, List.length_append, List.length_singleton]
  omega

theorem left_empty_le (letters : Text) (after : List Text) :
    left Text.empty after ≤ left letters after := by
  simp [left]

theorem exists_letterReads (optstring : List UInt8) (letter : UInt8) (more : Text)
    (after : List Text) :
    ∃ answer rest later, LetterReads optstring letter more after answer rest later ∧
      left rest later ≤ left more after := by
  have behind := left_empty_le more after
  cases known : declared optstring letter with
  | none => exact ⟨_, _, _, .unknown known, Nat.le_refl _⟩
  | some takes =>
      cases takes with
      | false => exact ⟨_, _, _, .flag known, Nat.le_refl _⟩
      | true =>
          by_cases last : more.bytes = []
          · cases after with
            | nil => exact ⟨_, _, _, .missing known last, behind⟩
            | cons value after =>
                refine ⟨_, _, _, .separate known last, ?_⟩
                rw [left_cons]
                exact (left_empty_le more after).trans (Nat.le_add_right _ _)
          · exact ⟨_, _, _, .attached known last, behind⟩

theorem exists_nameReads (table : List LongOption) (arg : Text) (after : List Text) :
    ∃ answer later, NameReads table arg after answer later ∧
      left Text.empty later ≤ left Text.empty after := by
  cases known : lookup table (longName arg) with
  | none => exact ⟨_, _, .unknown known, Nat.le_refl _⟩
  | some option =>
      cases takes : option.takesValue with
      | false =>
          cases given : longValue arg with
          | none => exact ⟨_, _, .flag known takes given, Nat.le_refl _⟩
          | some value => exact ⟨_, _, .refused known takes given, Nat.le_refl _⟩
      | true =>
          cases given : longValue arg with
          | some value => exact ⟨_, _, .attached known takes given, Nat.le_refl _⟩
          | none =>
              cases after with
              | nil => exact ⟨_, _, .missing known takes given, Nat.le_refl _⟩
              | cons value after =>
                  refine ⟨_, _, .separate known takes given, ?_⟩
                  rw [left_cons]
                  exact Nat.le_add_right _ _

theorem exists_reads (order : Order) (options : Options) (letters : Text) (after : List Text) :
    ∃ answers operands, Reads order options letters after answers operands := by
  induction bytes : left letters after using Nat.strong_induction_on generalizing letters after with
  | _ count fewer =>
      have shorter (rest : Text) (later : List Text) (less : left rest later < left letters after) :
          ∃ answers operands, Reads order options rest later answers operands :=
        fewer _ (bytes ▸ less) rest later rfl
      cases lettersEq : letters.bytes with
      | cons letter behind =>
          rcases exists_letterReads options.optstring letter (letters.drop 1) after with
            ⟨answer, rest, later, read, le⟩
          have less : left (letters.drop 1) after < left letters after := by
            simp [left, lettersEq]
          rcases shorter rest later (Nat.lt_of_le_of_lt le less) with ⟨answers, operands, reads⟩
          exact ⟨_, _, .letter lettersEq read reads⟩
      | nil =>
          rw [Text.eq_empty lettersEq] at shorter ⊢
          cases after with
          | nil => exact ⟨_, _, .ends⟩
          | cons arg after =>
              have less : left Text.empty after < left Text.empty (arg :: after) := by
                rw [left_cons]
                omega
              by_cases operand : IsOperand arg
              · cases order with
                | posix => exact ⟨_, _, .stops rfl operand⟩
                | permute =>
                    rcases shorter Text.empty after less with ⟨answers, operands, reads⟩
                    exact ⟨_, _, .passes rfl operand reads⟩
              · by_cases isDashes : arg.bytes = [dash, dash]
                · exact ⟨_, _, .dashes isDashes⟩
                · by_cases long : ∃ table, Names options arg table
                  · rcases long with ⟨table, names⟩
                    rcases exists_nameReads table arg after with ⟨answer, later, read, le⟩
                    rcases shorter Text.empty later (Nat.lt_of_le_of_lt le less) with
                      ⟨answers, operands, reads⟩
                    exact ⟨_, _, .long ⟨operand, isDashes⟩ names read reads⟩
                  · have less : left (arg.drop 1) after < left Text.empty (arg :: after) := by
                      simp only [left, Text.bytes_drop, List.flatMap_cons, List.length_append,
                        List.length_drop, List.length_singleton]
                      omega
                    rcases shorter (arg.drop 1) after less with ⟨answers, operands, reads⟩
                    exact ⟨_, _, .opens ⟨operand, isDashes⟩ (not_exists.mp long) reads⟩

end CExamples.CommandLine
