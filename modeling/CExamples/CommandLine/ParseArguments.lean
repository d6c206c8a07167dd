import CExamples.CommandLine.Loop
import Mathlib.Logic.Function.Basic

/-!
# Taking the arguments of a program

`parse_arguments` of the programs: a loop over the options whose switch stores a value,
raises a flag or ends the program with `usage`, and tests of the number of operands that
are left.  The programs differ in their options, in the tests and in the messages.
-/

namespace CExamples.CommandLine

open CExamples.Program
open CExamples.Word

/-- What `usage` is called with: the exit code and the message. -/
structure Usage where
  exitCode : Nat
  message : Option (List UInt8)
  deriving DecidableEq, Repr

/-- `usage(argv[0], EXIT_SUCCESS, NULL)` -/
def Usage.help : Usage where
  exitCode := 0
  message := none

/-- `usage(argv[0], EXIT_FAILURE, message)` -/
def Usage.failure (message : List UInt8) : Usage where
  exitCode := 1
  message := some message

/-- `UNKNOWN_OPTION_MESSAGE_LEN` -/
def unknownOptionMessageLen : Nat :=
  24

/-- `"Unknown option '-%c'."` -/
def unknownOptionText (optopt : UInt8) : List UInt8 :=
  ascii "Unknown option '-" ++ optopt :: ascii "'."

/-- The string in `message` behind `snprintf`. -/
def unknownOption (optopt : UInt8) : List UInt8 :=
  cString ((unknownOptionText optopt).take (unknownOptionMessageLen - 1) ++ [0])

/-- The buffer holds the message and its terminator. -/
theorem unknownOption_eq {optopt : UInt8} (nonzero : optopt ≠ 0) :
    unknownOption optopt = unknownOptionText optopt := by
  have fits : (unknownOptionText optopt).length ≤ unknownOptionMessageLen - 1 := by
    rw [unknownOptionText, List.length_append, List.length_cons]
    decide
  have noZero : 0 ∉ unknownOptionText optopt := by
    simp only [unknownOptionText, List.mem_append, List.mem_cons, not_or]
    exact ⟨by decide, nonzero.symm, by decide⟩
  rw [unknownOption, List.take_of_length_le fits, cString_append_zero, cString_eq_self noZero]

/-- The byte 0 ends the message. -/
theorem unknownOption_zero : unknownOption 0 = ascii "Unknown option '-" := by
  decide

/-- What the switch does with the letter of an option. -/
inductive Case
  /-- `*value = optarg;` -/
  | store
  /-- `*flag = true;` -/
  | raise
  /-- `usage(argv[0], EXIT_SUCCESS, NULL);` -/
  | help
  deriving DecidableEq, Repr

/-- What a `parse_arguments` consists of. -/
structure Parser where
  options : Options
  cases : List (UInt8 × Case)
  /-- the values of `optopt` with a message of their own -/
  refusals : List (UInt8 × List UInt8)
  /-- `default` -/
  fallback : Usage
  /-- `if(optind + count >= argc)`, and the message -/
  required : List (Nat × List UInt8)
  /-- `if(optind < argc - count)`, and the message -/
  limit : Option (Nat × List UInt8)

/-- The values that were stored and the flags that were raised. -/
structure Settings where
  values : UInt8 → Option Text
  raised : UInt8 → Bool

/-- The variables of `main` before the loop. -/
def Settings.initial : Settings where
  values _ := none
  raised _ := false

/-- What `parse_arguments` leaves: `argv[optind + i]` is the operand `i`, or `NULL`
behind the last. -/
structure Arguments where
  settings : Settings
  operands : List Text

namespace Parser

/-- The message for `?`. -/
def refusal (parser : Parser) (optopt : UInt8) : List UInt8 :=
  (parser.refusals.lookup optopt).getD (unknownOption optopt)

/-- `switch(opt)` -/
def switch (parser : Parser) (settings : Settings) : Answer → Except Usage Settings
  | .option letter optarg =>
      match parser.cases.lookup letter with
      | some .store => .ok { settings with values := Function.update settings.values letter optarg }
      | some .raise => .ok { settings with raised := Function.update settings.raised letter true }
      | some .help => .error .help
      | none => .error parser.fallback
  | .question optopt => .error (.failure (parser.refusal optopt))

/-- The tests behind the loop. -/
def check (parser : Parser) (argc optind : Nat) : Except Usage Unit :=
  match parser.required.find? fun test => optind + test.1 ≥ argc with
  | some (_, message) => .error (.failure message)
  | none =>
      match parser.limit with
      | some (count, message) =>
          if (optind : Int) < argc - count then .error (.failure message) else .ok ()
      | none => .ok ()

/-- Behind the loop. -/
def finish (parser : Parser) (argc : Nat) (state : Scan × Settings) : Except Usage Arguments := do
  parser.check argc state.1.optind
  pure { settings := state.2, operands := state.1.argv.drop state.1.optind }

end Parser

/-- `optind` is 1. -/
def start (argv : List Text) : Scan where
  taken := argv.take 1
  skipped := []
  letters := Text.empty
  rest := argv.drop 1

/-- `parse_arguments`, with fuel for the passes of its loop. -/
def parseArguments (fuel : Nat) (order : Order) (parser : Parser) (argv : List Text) :
    Option (Except Usage Arguments) :=
  (passes (optionPass order parser.options parser.switch) fuel (start argv, .initial)).map
    (· >>= parser.finish argv.length)

/-- `parse_arguments` ends with `result`. -/
def ParsesTo (order : Order) (parser : Parser) (argv : List Text)
    (result : Except Usage Arguments) : Prop :=
  ∃ fuel, parseArguments fuel order parser argv = some result

/-! ## What comes of the answers -/

/-- The values that are given to an option, in order. -/
def given (letter : UInt8) : List Answer → List (Option Text)
  | [] => []
  | .option name optarg :: answers =>
      if name = letter then optarg :: given letter answers else given letter answers
  | .question _ :: answers => given letter answers

theorem mem_given_iff {letter : UInt8} {optarg : Option Text} {answers : List Answer} :
    optarg ∈ given letter answers ↔ .option letter optarg ∈ answers := by
  induction answers with
  | nil => exact iff_of_false List.not_mem_nil List.not_mem_nil
  | cons answer answers ih =>
      cases answer with
      | question optopt => simp [given, ih]
      | option name value =>
          by_cases same : name = letter
          · simp [given, same, ih]
          · simp [given, same, ih, Ne.symm same]

namespace Parser

/-- What `usage` is called with at an answer that is not stored. -/
def ending (parser : Parser) : Answer → Option Usage
  | .option letter _ =>
      match parser.cases.lookup letter with
      | some .help => some .help
      | none => some parser.fallback
      | _ => none
  | .question optopt => some (.failure (parser.refusal optopt))

/-- What is stored at an answer. -/
def keep (parser : Parser) (settings : Settings) : Answer → Settings
  | .option letter optarg =>
      match parser.cases.lookup letter with
      | some .store => { settings with values := Function.update settings.values letter optarg }
      | some .raise => { settings with raised := Function.update settings.raised letter true }
      | _ => settings
  | .question _ => settings

/-- What `usage` is called with for a number of operands. -/
def miscounted (parser : Parser) (count : Nat) : Option Usage :=
  match parser.required.find? fun test => count ≤ test.1 with
  | some (_, message) => some (.failure message)
  | none =>
      match parser.limit with
      | some (most, message) => if most < count then some (.failure message) else none
      | none => none

/-- What `parse_arguments` makes of a reading of the command line. -/
def outcome (parser : Parser) (answers : List Answer) (operands : List Text) :
    Except Usage Arguments :=
  match answers.findSome? parser.ending with
  | some usage => .error usage
  | none =>
      match parser.miscounted operands.length with
      | some usage => .error usage
      | none =>
          .ok { settings := answers.foldl parser.keep .initial, operands := operands }

variable (parser : Parser)

theorem switch_of_ending {settings : Settings} {answer : Answer} {usage : Usage}
    (ends : parser.ending answer = some usage) :
    parser.switch settings answer = .error usage := by
  cases answer with
  | question optopt =>
      cases ends
      rfl
  | option letter optarg =>
      rw [ending] at ends
      rw [switch]
      cases action : parser.cases.lookup letter with
      | none =>
          rw [action] at ends
          cases ends
          rfl
      | some kind =>
          rw [action] at ends
          cases kind with
          | store | raise => cases ends
          | help =>
              cases ends
              rfl

theorem switch_of_goesOn {settings : Settings} {answer : Answer}
    (goesOn : parser.ending answer = none) :
    parser.switch settings answer = .ok (parser.keep settings answer) := by
  cases answer with
  | question optopt => cases goesOn
  | option letter optarg =>
      rw [ending] at goesOn
      rw [switch, keep]
      cases action : parser.cases.lookup letter with
      | none =>
          rw [action] at goesOn
          cases goesOn
      | some kind =>
          rw [action] at goesOn
          cases kind with
          | store | raise => rfl
          | help => cases goesOn

/-- The first answer that is not stored ends the program. -/
theorem foldlM_switch (answers : List Answer) (settings : Settings) :
    answers.foldlM parser.switch settings =
      match answers.findSome? parser.ending with
      | some usage => .error usage
      | none => .ok (answers.foldl parser.keep settings) := by
  induction answers generalizing settings with
  | nil => rfl
  | cons answer answers ih =>
      rw [List.foldlM_cons, List.findSome?_cons]
      cases ends : parser.ending answer with
      | some usage =>
          rw [parser.switch_of_ending ends]
          rfl
      | none =>
          rw [parser.switch_of_goesOn ends]
          exact ih (parser.keep settings answer)

/-- The tests look only at the number of operands. -/
theorem check_eq {argc optind : Nat} (within : optind ≤ argc) :
    parser.check argc optind =
      match parser.miscounted (argc - optind) with
      | some usage => .error usage
      | none => .ok () := by
  have same : (fun test : Nat × List UInt8 => decide (optind + test.1 ≥ argc)) =
      fun test => decide (argc - optind ≤ test.1) := by
    funext test
    exact decide_eq_decide.mpr (by omega)
  rw [check, miscounted, same]
  cases parser.required.find? fun test => argc - optind ≤ test.1 with
  | some test => rfl
  | none =>
      rcases parser.limit with _ | ⟨most, message⟩
      · rfl
      · have few : (optind : Int) < argc - most ↔ most < argc - optind := by omega
        simp only [few]
        split <;> rfl

/-- What `parse_arguments` makes of a command line, by its reading. -/
theorem parsesTo_outcome {order : Order} {argv : List Text} {answers : List Answer}
    {operands : List Text}
    (reads : Reads order parser.options Text.empty (argv.drop 1) answers operands) :
    ParsesTo order parser argv (parser.outcome answers operands) := by
  have located : (start argv).At Text.empty (argv.drop 1) :=
    ⟨rfl, fun _ => rfl, fun some => absurd rfl some⟩
  rcases @Reads.leaves _ _ _ _ parser.switch _ _ _ _ reads _ located with
    ⟨last, behind, perm, leaves⟩
  rcases leaves .initial with ⟨fuel, run⟩
  refine ⟨fuel, ?_⟩
  have argvEq : (start argv).argv = argv := List.take_append_drop 1 argv
  have count : argv.length - last.optind = operands.length := by
    rw [← argvEq, ← perm.length_eq, ← List.length_drop, behind]
    rfl
  have within : last.optind ≤ argv.length := by
    rw [← argvEq, ← perm.length_eq, Scan.argv, List.length_append]
    exact Nat.le_add_right _ _
  rw [parseArguments, run, foldlM_switch, outcome]
  cases answers.findSome? parser.ending with
  | some usage => rfl
  | none =>
      change some (parser.finish argv.length (last, answers.foldl parser.keep .initial)) = _
      rw [finish, parser.check_eq within, count, behind]
      cases parser.miscounted operands.length with
      | some usage => rfl
      | none => rfl

section Keep

variable {letter name : UInt8} {optarg : Option Text} {settings : Settings}

theorem values_keep (stores : parser.cases.lookup letter = some .store) :
    (parser.keep settings (.option letter optarg)).values letter = optarg := by
  rw [keep, stores]
  exact Function.update_self _ _ _

theorem values_keep_of_ne (different : name ≠ letter) :
    (parser.keep settings (.option name optarg)).values letter = settings.values letter := by
  rw [keep]
  split
  · exact Function.update_of_ne different.symm _ _
  · rfl
  · rfl

theorem raised_keep (raises : parser.cases.lookup letter = some .raise) :
    (parser.keep settings (.option letter optarg)).raised letter = true := by
  rw [keep, raises]
  exact Function.update_self _ _ _

theorem raised_keep_of_ne (different : name ≠ letter) :
    (parser.keep settings (.option name optarg)).raised letter = settings.raised letter := by
  rw [keep]
  split
  · rfl
  · exact Function.update_of_ne different.symm _ _
  · rfl

end Keep

/-- The last value that is given to an option stays. -/
theorem values_foldl {letter : UInt8} (stores : parser.cases.lookup letter = some .store)
    (answers : List Answer) (settings : Settings) :
    (answers.foldl parser.keep settings).values letter =
      (given letter answers).getLast?.getD (settings.values letter) := by
  induction answers generalizing settings with
  | nil => rfl
  | cons answer answers ih =>
      rw [List.foldl_cons, ih]
      cases answer with
      | question optopt => rfl
      | option name optarg =>
          by_cases same : name = letter
          · rw [given, if_pos same, same, parser.values_keep stores, List.getLast?_cons]
            rfl
          · rw [given, if_neg same, parser.values_keep_of_ne same]

/-- A flag is raised by each of its options. -/
theorem raised_foldl {letter : UInt8} (raises : parser.cases.lookup letter = some .raise)
    (answers : List Answer) (settings : Settings) :
    (answers.foldl parser.keep settings).raised letter = true ↔
      settings.raised letter = true ∨ given letter answers ≠ [] := by
  induction answers generalizing settings with
  | nil => simp [given]
  | cons answer answers ih =>
      rw [List.foldl_cons, ih]
      cases answer with
      | question optopt => rfl
      | option name optarg =>
          by_cases same : name = letter
          · rw [given, if_pos same, same, parser.raised_keep raises]
            simp
          · rw [given, if_neg same, parser.raised_keep_of_ne same]

theorem outcome_eq_ok_iff {answers : List Answer} {operands : List Text} {arguments : Arguments} :
    parser.outcome answers operands = .ok arguments ↔
      (∀ answer ∈ answers, parser.ending answer = none) ∧
        parser.miscounted operands.length = none ∧
        { settings := answers.foldl parser.keep .initial, operands := operands } = arguments := by
  rw [outcome, ← List.findSome?_eq_none_iff]
  cases answers.findSome? parser.ending with
  | some usage => simp
  | none =>
      cases parser.miscounted operands.length with
      | some usage => simp
      | none => simp

/-- The program ends at its first answer that is not stored, or at the tests. -/
theorem outcome_eq_error_iff {answers : List Answer} {operands : List Text} {usage : Usage} :
    parser.outcome answers operands = .error usage ↔
      (∃ before answer after, answers = before ++ answer :: after ∧
          parser.ending answer = some usage ∧ ∀ kept ∈ before, parser.ending kept = none) ∨
        (∀ answer ∈ answers, parser.ending answer = none) ∧
          parser.miscounted operands.length = some usage := by
  rw [outcome, ← List.findSome?_eq_none_iff, ← List.findSome?_eq_some_iff]
  cases answers.findSome? parser.ending with
  | some usage => simp
  | none =>
      cases parser.miscounted operands.length with
      | some usage => simp
      | none => simp

end Parser

theorem ParsesTo.unique {order : Order} {parser : Parser} {argv : List Text}
    {result other : Except Usage Arguments} (parses : ParsesTo order parser argv result)
    (again : ParsesTo order parser argv other) : result = other := by
  rcases parses with ⟨fuel, run⟩
  rcases again with ⟨more, rerun⟩
  rcases Option.map_eq_some_iff.mp run with ⟨left, leaves, rfl⟩
  rcases Option.map_eq_some_iff.mp rerun with ⟨right, leavesAgain, rfl⟩
  rw [Leaves.unique ⟨fuel, leaves⟩ ⟨more, leavesAgain⟩]

/-- `parse_arguments` ends in one way, which is that of the reading. -/
theorem parsesTo_iff {order : Order} {parser : Parser} {argv : List Text}
    {result : Except Usage Arguments} :
    ParsesTo order parser argv result ↔
      ∃ answers operands, Reads order parser.options Text.empty (argv.drop 1) answers operands ∧
        parser.outcome answers operands = result := by
  constructor
  · intro parses
    rcases exists_reads order parser.options Text.empty (argv.drop 1) with
      ⟨answers, operands, reads⟩
    exact ⟨answers, operands, reads, (parser.parsesTo_outcome reads).unique parses⟩
  · rintro ⟨answers, operands, reads, rfl⟩
    exact parser.parsesTo_outcome reads

end CExamples.CommandLine
