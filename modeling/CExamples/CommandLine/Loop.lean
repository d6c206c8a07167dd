import CExamples.CommandLine.Grammar

/-!
# The loop over the options

`while((opt = getopt(…)) != -1) switch(opt) { … }`, with a switch that deals with an
answer or ends the program.  The loop deals with the answers of the reading of the
command line, and it leaves the operands behind `optind` in an `argv` whose arguments
are those it began with.
-/

namespace CExamples.CommandLine

open CExamples.Program
open CExamples.Word

universe u

variable {ε σ : Type u}

/-- A pass of the loop. -/
def optionPass (order : Order) (options : Options) (switch : σ → Answer → Except ε σ)
    (state : Scan × σ) : Pass (Scan × σ) (Except ε (Scan × σ)) :=
  match getopt order options state.1 with
  | (none, scan) => .left (.ok (scan, state.2))
  | (some answer, scan) =>
      match switch state.2 answer with
      | .ok settings => .again (scan, settings)
      | .error error => .left (.error error)

namespace Scan

/-! ## What a call keeps -/

/-- A later scan of the same arguments, with the same operands passed over. -/
structure Follows (later scan : Scan) : Prop where
  skipped : later.skipped = scan.skipped
  argv : later.argv.Perm scan.argv

theorem Follows.refl (scan : Scan) : scan.Follows scan :=
  ⟨rfl, List.Perm.refl _⟩

theorem Follows.trans {first second third : Scan} (later : third.Follows second)
    (sooner : second.Follows first) : third.Follows first :=
  ⟨later.skipped.trans sooner.skipped, later.argv.trans sooner.argv⟩

theorem next_follows (scan : Scan) : scan.next.Follows scan := by
  constructor
  · rfl
  · rcases restEq : scan.rest with _ | ⟨arg, rest⟩
    · simp [argv, next, restEq]
    · simp only [argv, next, restEq, List.take_succ_cons, List.take_zero, List.tail_cons,
        List.append_assoc, List.singleton_append]
      exact List.Perm.append_left _ List.perm_middle.symm

theorem behind_follows (scan : Scan) (more : Text) : (scan.behind more).Follows scan := by
  rw [behind]
  split
  · exact next_follows scan
  · exact ⟨rfl, List.Perm.refl _⟩

theorem fromNext_follows (letter : UInt8) (scan : Scan) :
    (fromNext letter scan).2.Follows scan := by
  rw [fromNext]
  split
  · exact next_follows scan
  · exact (next_follows scan.next).trans (next_follows scan)

theorem takeLetter_follows (optstring : List UInt8) (letter : UInt8) (more : Text) (scan : Scan) :
    (takeLetter optstring letter more scan).2.Follows scan := by
  rw [takeLetter]
  split
  · exact behind_follows scan more
  · exact behind_follows scan more
  · split
    · exact fromNext_follows letter scan
    · exact next_follows scan

theorem takeLong_follows (table : List LongOption) (arg : Text) (scan : Scan) :
    (takeLong table arg scan).2.Follows scan := by
  rw [takeLong]
  split
  · exact next_follows scan
  · split
    · exact next_follows scan
    · exact fromNext_follows _ scan
    · exact next_follows scan
    · exact next_follows scan

/-! ## Where a scan is -/

/-- The scan has `letters` and the arguments `after` ahead. -/
structure At (scan : Scan) (letters : Text) (after : List Text) : Prop where
  same : scan.letters = letters
  between : letters.bytes = [] → scan.rest = after
  inside : letters.bytes ≠ [] → ∃ arg, scan.rest = arg :: after

variable {scan : Scan} {arg : Text} {after : List Text}

theorem next_at (restEq : scan.rest = arg :: after) : scan.next.At Text.empty after := by
  constructor
  · rfl
  · intro _
    rw [next, restEq]
    rfl
  · exact fun some => absurd rfl some

theorem behind_at (restEq : scan.rest = arg :: after) (more : Text) :
    (scan.behind more).At more after := by
  by_cases last : more.bytes = []
  · rw [behind, if_pos last, Text.eq_empty last]
    exact next_at restEq
  · rw [behind, if_neg last]
    exact ⟨rfl, fun none => absurd none last, fun _ => ⟨arg, restEq⟩⟩

theorem fromNext_missing (restEq : scan.rest = [arg]) (letter : UInt8) :
    fromNext letter scan = (.question letter, scan.next) := by
  have ends : scan.next.rest = [] := (next_at restEq).between rfl
  rw [fromNext, ends]

theorem fromNext_separate {value : Text} (restEq : scan.rest = arg :: value :: after)
    (letter : UInt8) :
    fromNext letter scan = (.option letter (some value), scan.next.next) := by
  have goesOn : scan.next.rest = value :: after := (next_at restEq).between rfl
  rw [fromNext, goesOn]

/-- The scanner reads a letter as the grammar does. -/
theorem takeLetter_reads {optstring : List UInt8} {letter : UInt8} {more rest : Text}
    {later : List Text} {answer : Answer}
    (read : LetterReads optstring letter more after answer rest later)
    (restEq : scan.rest = arg :: after) :
    (takeLetter optstring letter more scan).1 = answer ∧
      (takeLetter optstring letter more scan).2.At rest later := by
  rw [takeLetter]
  cases read with
  | unknown undeclared =>
      rw [undeclared]
      exact ⟨rfl, behind_at restEq more⟩
  | flag known =>
      rw [known]
      exact ⟨rfl, behind_at restEq more⟩
  | attached known value =>
      rw [known]
      simp only [if_neg value]
      exact ⟨trivial, next_at restEq⟩
  | separate known last =>
      rw [known]
      simp only [if_pos last, fromNext_separate restEq]
      exact ⟨trivial, next_at ((next_at restEq).between rfl)⟩
  | missing known last =>
      rw [known]
      simp only [if_pos last, fromNext_missing restEq]
      exact ⟨trivial, next_at restEq⟩

/-- The scanner reads a long option as the grammar does. -/
theorem takeLong_reads {table : List LongOption} {later : List Text} {answer : Answer}
    (read : NameReads table arg after answer later) {first : Text}
    (restEq : scan.rest = first :: after) :
    (takeLong table arg scan).1 = answer ∧ (takeLong table arg scan).2.At Text.empty later := by
  rw [takeLong]
  cases read with
  | unknown undeclared =>
      rw [undeclared]
      exact ⟨rfl, next_at restEq⟩
  | flag known takes bare | refused known takes bare | attached known takes bare =>
      simp only [known, takes, bare]
      exact ⟨trivial, next_at restEq⟩
  | separate known takes bare =>
      simp only [known, takes, bare, fromNext_separate restEq]
      exact ⟨trivial, next_at ((next_at restEq).between rfl)⟩
  | missing known takes bare =>
      simp only [known, takes, bare, fromNext_missing restEq]
      exact ⟨trivial, next_at restEq⟩

/-- An option is not passed over. -/
theorem pass_eq (order : Order) (restEq : scan.rest = arg :: after) (option : ¬IsOperand arg) :
    scan.pass order = scan := by
  cases order with
  | posix => rfl
  | permute =>
      rcases scan with ⟨taken, skipped, letters, rest⟩
      change rest = arg :: after at restEq
      simp [pass, restEq, option]

/-- The operand in front. -/
def skip (scan : Scan) (arg : Text) (after : List Text) : Scan :=
  { scan with skipped := scan.skipped ++ [arg], rest := after }

theorem pass_skip (restEq : scan.rest = arg :: after) (operand : IsOperand arg) :
    scan.pass .permute = (scan.skip arg after).pass .permute := by
  simp [pass, skip, restEq, operand]

theorem argv_skip (restEq : scan.rest = arg :: after) : (scan.skip arg after).argv = scan.argv := by
  simp [argv, skip, restEq]

/-- Behind `optind` are the operands. -/
theorem drop_optind (scan : Scan) : scan.argv.drop scan.optind = scan.skipped ++ scan.rest := by
  rw [argv, optind, List.drop_left]

end Scan

/-! ## What a call returns -/

section Getopt

variable {order : Order} {options : Options} {scan : Scan} {arg letters : Text} {letter : UInt8}
  {behind : List UInt8} {after : List Text}

theorem getopt_letter (located : scan.At letters after) (lettersEq : letters.bytes = letter :: behind) :
    getopt order options scan =
      (some (takeLetter options.optstring letter (letters.drop 1) scan).1,
        (takeLetter options.optstring letter (letters.drop 1) scan).2) := by
  rw [getopt, located.same]
  simp only [lettersEq]

/-- Between two arguments. -/
theorem getopt_between (located : scan.At Text.empty (arg :: after)) (option : ¬IsOperand arg) :
    getopt order options scan =
      if arg.bytes = [dash, dash] then (none, scan.next)
      else (some (takeArgument options arg scan).1, (takeArgument options arg scan).2) := by
  have restEq := located.between rfl
  rw [getopt, located.same]
  simp only [Text.bytes_empty, Scan.pass_eq order restEq option, restEq, if_neg option]

theorem exists_letter (option : IsOption arg) :
    ∃ letter behind, arg.bytes = dash :: letter :: behind := by
  rcases option with ⟨noOperand, _⟩
  rw [IsOperand, not_or, not_not] at noOperand
  rcases bytesEq : arg.bytes with _ | ⟨first, _ | ⟨letter, behind⟩⟩
  · rw [bytesEq] at noOperand
    cases noOperand.1
  · rw [bytesEq] at noOperand
    cases noOperand.1
    exact absurd rfl noOperand.2
  · rw [bytesEq] at noOperand
    cases noOperand.1
    exact ⟨letter, behind, rfl⟩

theorem takeArgument_of_short (short : ∀ table, ¬Names options arg table) :
    takeArgument options arg scan =
      takeLetter options.optstring (Text.first (arg.bytes.drop 1)) (arg.drop 2) scan := by
  rw [takeArgument]
  cases long : options.long with
  | none => rfl
  | some table => exact if_neg fun named => short table ⟨long, named⟩

theorem takeArgument_of_long {table : List LongOption} (names : Names options arg table) :
    takeArgument options arg scan = takeLong table arg scan := by
  rw [takeArgument, names.1]
  exact if_pos names.2

/-- The letters of an argument are read as if it had been begun already. -/
theorem getopt_opens (located : scan.At Text.empty (arg :: after)) (option : IsOption arg)
    (short : ∀ table, ¬Names options arg table) :
    getopt order options scan =
      getopt order options { scan with letters := arg.drop 1 } := by
  rcases exists_letter option with ⟨letter, behind, bytesEq⟩
  have lettersEq : (arg.drop 1).bytes = letter :: behind := by
    rw [Text.bytes_drop, bytesEq]
    rfl
  have begun : ({ scan with letters := arg.drop 1 } : Scan).At (arg.drop 1) after :=
    ⟨rfl, fun none => absurd (none.symm.trans lettersEq) (List.cons_ne_nil _ _).symm,
      fun _ => ⟨arg, located.between rfl⟩⟩
  rw [getopt_between located option.1, if_neg option.2, takeArgument_of_short short,
    getopt_letter begun lettersEq, Text.drop_drop, bytesEq]
  rfl

end Getopt

/-! ## The loop -/

section Loop

variable {order : Order} {options : Options} {switch : σ → Answer → Except ε σ}

theorem Leaves.ended {scan last : Scan} (settings : σ)
    (returned : getopt order options scan = (none, last)) :
    Leaves (optionPass order options switch) (scan, settings) (.ok (last, settings)) := by
  apply Leaves.left
  rw [optionPass, returned]

/-- The loop deals with an answer and goes on, or the switch ends the program. -/
theorem Leaves.answered {scan next last : Scan} {answer : Answer} {answers : List Answer}
    (returned : getopt order options scan = (some answer, next))
    (leaves : ∀ settings, Leaves (optionPass order options switch) (next, settings)
      ((answers.foldlM switch settings).map (last, ·))) (settings : σ) :
    Leaves (optionPass order options switch) (scan, settings)
      (((answer :: answers).foldlM switch settings).map (last, ·)) := by
  rw [List.foldlM_cons]
  cases switched : switch settings answer with
  | ok after =>
      refine Leaves.again ?_ (leaves after)
      simp only [optionPass, returned, switched]
  | error error =>
      refine Leaves.left ?_
      simp only [optionPass, returned, switched]
      rfl

/-- The loop deals with the answers of the reading and leaves its operands. -/
theorem Reads.leaves {letters : Text} {after operands : List Text} {answers : List Answer}
    (reads : Reads order options letters after answers operands) {scan : Scan}
    (located : scan.At letters after) :
    ∃ last, last.argv.drop last.optind = scan.skipped ++ operands ∧ last.argv.Perm scan.argv ∧
      ∀ settings, Leaves (optionPass order options switch) (scan, settings)
        ((answers.foldlM switch settings).map (last, ·)) := by
  induction reads generalizing scan with
  | ends =>
      have restEq := located.between rfl
      have returned : getopt order options scan = (none, scan) := by
        rcases scan with ⟨taken, skipped, letters, rest⟩
        cases located.same
        change rest = [] at restEq
        cases order <;> simp [getopt, Scan.pass, restEq]
      refine ⟨scan, ?_, List.Perm.refl _, fun settings => Leaves.ended settings returned⟩
      rw [Scan.drop_optind, restEq]
  | dashes isDashes =>
      rename_i arg operands
      have option : ¬IsOperand arg := by
        rw [IsOperand, isDashes]
        decide
      have returned : getopt order options scan = (none, scan.next) := by
        rw [getopt_between located option, if_pos isDashes]
      refine ⟨scan.next, ?_, scan.next_follows.argv, fun settings =>
        Leaves.ended settings returned⟩
      rw [Scan.drop_optind, (Scan.next_at (located.between rfl)).between rfl]
      rfl
  | stops posix operand =>
      rename_i arg after
      have restEq := located.between rfl
      have returned : getopt order options scan = (none, scan) := by
        rw [getopt, located.same, posix]
        simp only [Text.bytes_empty, Scan.pass, restEq, if_pos operand]
      refine ⟨scan, ?_, List.Perm.refl _, fun settings => Leaves.ended settings returned⟩
      rw [Scan.drop_optind, restEq]
  | passes permute operand reads ih =>
      rename_i arg after operands answers
      have restEq := located.between rfl
      have skipped : (scan.skip arg after).At Text.empty after :=
        ⟨located.same, fun _ => rfl, fun some => absurd rfl some⟩
      rcases ih skipped with ⟨last, behind, perm, leaves⟩
      refine ⟨last, ?_, (Scan.argv_skip restEq) ▸ perm, fun settings =>
        Leaves.congr ?_ (leaves settings)⟩
      · rw [behind, Scan.skip, List.append_assoc, List.singleton_append]
      · have sameLetters : (scan.skip arg after).letters = scan.letters := rfl
        rw [optionPass, optionPass, permute, getopt, getopt, sameLetters, located.same]
        simp only [Text.bytes_empty, Scan.pass_skip restEq operand]
  | opens option short reads ih =>
      rename_i arg after operands answers
      rcases exists_letter option with ⟨letter, behind, bytesEq⟩
      have begun : ({ scan with letters := arg.drop 1 } : Scan).At (arg.drop 1) after := by
        refine ⟨rfl, fun none => ?_, fun _ => ⟨arg, located.between rfl⟩⟩
        rw [Text.bytes_drop, bytesEq] at none
        cases none
      rcases ih begun with ⟨last, behind, perm, leaves⟩
      refine ⟨last, behind, perm, fun settings => Leaves.congr ?_ (leaves settings)⟩
      rw [optionPass, optionPass, getopt_opens located option short]
  | letter lettersEq read reads ih =>
      rename_i letters more letter behind after later operands answer answers
      have inside : letters.bytes ≠ [] := by
        rw [lettersEq]
        exact List.cons_ne_nil _ _
      rcases located.inside inside with ⟨arg, restEq⟩
      have taken := Scan.takeLetter_reads read restEq
      have follows := Scan.takeLetter_follows options.optstring letter (letters.drop 1) scan
      have returned := @getopt_letter order options _ _ _ _ _ located lettersEq
      rw [taken.1] at returned
      rcases ih taken.2 with ⟨last, behind, perm, leaves⟩
      exact ⟨last, follows.skipped ▸ behind, perm.trans follows.argv,
        Leaves.answered returned leaves⟩
  | long option names read reads ih =>
      rename_i arg table after later operands answer answers
      have taken := Scan.takeLong_reads read (located.between rfl)
      have follows := Scan.takeLong_follows table arg scan
      have returned : getopt order options scan = (some answer, (takeLong table arg scan).2) := by
        rw [getopt_between located option.1, if_neg option.2, takeArgument_of_long names, taken.1]
      rcases ih taken.2 with ⟨last, behind, perm, leaves⟩
      exact ⟨last, follows.skipped ▸ behind, perm.trans follows.argv,
        Leaves.answered returned leaves⟩

end Loop

end CExamples.CommandLine
