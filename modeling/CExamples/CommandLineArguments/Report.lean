import CExamples.CommandLine.ParseArguments
import CExamples.Number.Decimal

/-!
# Reporting the options

`command-line-arguments/getopt/main.c` and `command-line-arguments/getopt_long/main.c`.
The programs print whether the options `a` and `b` were given, the value of `c`, which is
required, and the operands.  They differ in the long names of the options.

An unknown long option leaves `optopt` 0, and the message about it ends at that byte.
-/

namespace CExamples.CommandLineArguments

open CExamples.CommandLine
open CExamples.Number
open CExamples.Word

/-- The two programs. -/
inductive Program
  | getopt
  | getoptLong
  deriving DecidableEq, Repr

def letterA : UInt8 :=
  97

def letterB : UInt8 :=
  98

def letterC : UInt8 :=
  99

def letterH : UInt8 :=
  104

/-- `long_options` -/
def longOptions : List LongOption :=
  [⟨ascii "alpha", false, letterA⟩, ⟨ascii "beta", false, letterB⟩,
    ⟨ascii "charlie", true, letterC⟩, ⟨ascii "help", false, letterH⟩]

/-- The options of a program. -/
def Program.options : Program → Options
  | .getopt => { optstring := ascii "habc:", long := none }
  | .getoptLong => { optstring := ascii "habc:", long := some longOptions }

/-- `parse_arguments` -/
def Program.parser (program : Program) : Parser where
  options := program.options
  cases := [(letterA, .raise), (letterB, .raise), (letterC, .store), (letterH, .help)]
  refusals := [(letterC, ascii "Option '-c' requires a value.")]
  fallback := { exitCode := 1, message := none }
  required := []
  limit := none

/-- What a program prints. -/
structure Report where
  optionA : Bool
  optionB : Bool
  optionC : Text
  unnamed : List Text

/-- `bool_to_string` -/
def boolToString (value : Bool) : List UInt8 :=
  if value then ascii "true" else ascii "false"

/-- The loop over the operands, from one on. -/
def unnamedLines : (number : Nat) → List Text → List UInt8
  | _, [] => []
  | number, arg :: rest =>
      ascii "Unnamed argument " ++ decimal number ++ ascii ": '" ++ arg.bytes ++ ascii "'\n" ++
        unnamedLines (number + 1) rest

/-- The output of `main`. -/
def Report.text (report : Report) : List UInt8 :=
  ascii "Is option 'a' set?: " ++ boolToString report.optionA ++ ascii "\n" ++
    ascii "Is option 'b' set?: " ++ boolToString report.optionB ++ ascii "\n" ++
    ascii "Value of option 'c': " ++ report.optionC.bytes ++ ascii "\n" ++
    unnamedLines 1 report.unnamed

/-- `handle_arguments`, and the output behind it. -/
def handleArguments (arguments : Arguments) : Except Usage (List UInt8) :=
  match arguments.settings.values letterC with
  | none => .error (.failure (ascii "-c is required"))
  | some value =>
      .ok (Report.text
        { optionA := arguments.settings.raised letterA
          optionB := arguments.settings.raised letterB
          optionC := value
          unnamed := arguments.operands })

/-- `main`, with fuel for the passes of its loop. -/
def main (fuel : Nat) (order : Order) (program : Program) (argv : List Text) :
    Option (Except Usage (List UInt8)) :=
  (parseArguments fuel order program.parser argv).map (· >>= handleArguments)

/-- `main` ends with an output, or with `usage`. -/
def Ends (order : Order) (program : Program) (argv : List Text)
    (result : Except Usage (List UInt8)) : Prop :=
  ∃ fuel, main fuel order program argv = some result

/-! ## What the programs promise -/

/-- An option that a program stores. -/
inductive Kept : Answer → Prop
  | optionA : Kept (.option letterA none)
  | optionB : Kept (.option letterB none)
  | optionC (value : Text) : Kept (.option letterC (some value))

/-- What is asked for with `answers` is what is reported: each of them is stored, and
the last value of `c` counts. -/
structure Asks (answers : List Answer) (report : Report) : Prop where
  kept : ∀ answer ∈ answers, Kept answer
  optionA : report.optionA = true ↔ .option letterA none ∈ answers
  optionB : report.optionB = true ↔ .option letterB none ∈ answers
  optionC : (given letterC answers).getLast? = some (some report.optionC)

/-- Why a program calls `usage`. -/
inductive Rejected : List Answer → Usage → Prop
  | help {before after : List Answer} (kept : ∀ answer ∈ before, Kept answer) :
      Rejected (before ++ .option letterH none :: after) .help
  | noValue {before after : List Answer} (kept : ∀ answer ∈ before, Kept answer) :
      Rejected (before ++ .question letterC :: after)
        (.failure (ascii "Option '-c' requires a value."))
  | unknown {before after : List Answer} {optopt : UInt8} (kept : ∀ answer ∈ before, Kept answer)
      (other : optopt ≠ letterC) :
      Rejected (before ++ .question optopt :: after) (.failure (unknownOption optopt))
  | required {answers : List Answer} (kept : ∀ answer ∈ answers, Kept answer)
      (missing : ∀ value, .option letterC (some value) ∉ answers) :
      Rejected answers (.failure (ascii "-c is required"))

/-- An option as it is asked for. -/
inductive Asked
  | optionA
  | optionB
  | optionC (value : Text)
  deriving DecidableEq

namespace Asked

/-- The words for an option on the command line. -/
def words : Asked → List Text
  | .optionA => [⟨[dash, letterA], by decide⟩]
  | .optionB => [⟨[dash, letterB], by decide⟩]
  | .optionC value => [⟨[dash, letterC], by decide⟩, value]

/-- What the scanner answers. -/
def answer : Asked → Answer
  | .optionA => .option letterA none
  | .optionB => .option letterB none
  | .optionC value => .option letterC (some value)

/-- The value for `c`. -/
def value : Asked → Option Text
  | .optionC value => some value
  | _ => none

end Asked

/-- Two dashes. -/
def dashes : Text where
  bytes := [dash, dash]
  noZero := by decide

/-- What a program promises of its command line. -/
structure Reported (order : Order) (program : Program) (argv : List Text) : Prop where
  /-- A report is printed exactly where one is asked for. -/
  prints : ∀ text, Ends order program argv (.ok text) ↔
    ∃ answers report,
      Reads order program.options Text.empty (argv.drop 1) answers report.unnamed ∧
        Asks answers report ∧ text = report.text
  /-- Everything else is rejected for the first reason there is. -/
  rejects : ∀ usage, Ends order program argv (.error usage) ↔
    ∃ answers operands, Reads order program.options Text.empty (argv.drop 1) answers operands ∧
      Rejected answers usage
  /-- Options that are asked for in words are reported, before whatever operands. -/
  reports : ∀ (asked : List Asked) operands value, (asked.filterMap Asked.value).getLast? = some value →
    argv.drop 1 = asked.flatMap Asked.words ++ dashes :: operands →
    Ends order program argv (.ok (Report.text
      { optionA := decide (.optionA ∈ asked)
        optionB := decide (.optionB ∈ asked)
        optionC := value
        unnamed := operands }))

/-! ## The answers that the options give -/

theorem declared_iff {letter : UInt8} {takes : Bool} :
    declared (ascii "habc:") letter = some takes ↔
      takes = false ∧ (letter = letterH ∨ letter = letterA ∨ letter = letterB) ∨
        takes = true ∧ letter = letterC := by
  have optstring : ascii "habc:" = [letterH, letterA, letterB, letterC, colon] := by decide
  rw [optstring]
  by_cases h : letter = letterH
  · subst h
    cases takes <;> decide
  · by_cases a : letter = letterA
    · subst a
      cases takes <;> decide
    · by_cases b : letter = letterB
      · subst b
        cases takes <;> decide
      · by_cases c : letter = letterC
        · subst c
          cases takes <;> decide
        · by_cases last : letter = colon
          · subst last
            cases takes <;> decide
          · simp [declared, h, a, b, c, last, Ne.symm h, Ne.symm a, Ne.symm b, Ne.symm c,
              Ne.symm last]

/-- The answers are options that are stored, `h`, or `?`. -/
theorem answer_cases {program : Program} {answer : Answer} (valid : answer.Valid program.options) :
    Kept answer ∨ answer = .option letterH none ∨ ∃ optopt, answer = .question optopt := by
  cases answer with
  | question optopt => exact Or.inr (Or.inr ⟨optopt, rfl⟩)
  | option letter optarg =>
      have known : declared (ascii "habc:") letter = some optarg.isSome := by
        rcases valid with short | ⟨table, option, long, member, rfl, takes⟩
        · cases program <;> exact short
        · cases program with
          | getopt => cases long
          | getoptLong =>
              cases long
              rw [← takes]
              have each : ∀ option ∈ longOptions,
                  declared (ascii "habc:") option.val = some option.takesValue := by decide
              exact each option member
      rcases declared_iff.mp known with ⟨bare, rfl | rfl | rfl⟩ | ⟨valued, rfl⟩
      · rw [Option.isSome_eq_false_iff, Option.isNone_iff_eq_none] at bare
        rw [bare]
        exact Or.inr (Or.inl rfl)
      · rw [Option.isSome_eq_false_iff, Option.isNone_iff_eq_none] at bare
        rw [bare]
        exact Or.inl .optionA
      · rw [Option.isSome_eq_false_iff, Option.isNone_iff_eq_none] at bare
        rw [bare]
        exact Or.inl .optionB
      · rcases Option.isSome_iff_exists.mp valued with ⟨value, rfl⟩
        exact Or.inl (.optionC value)

theorem ending_eq_none_iff {program : Program} {answer : Answer}
    (valid : answer.Valid program.options) : program.parser.ending answer = none ↔ Kept answer := by
  constructor
  · intro goesOn
    rcases answer_cases valid with kept | rfl | ⟨optopt, rfl⟩
    · exact kept
    · cases goesOn
    · cases goesOn
  · rintro (_ | _ | _) <;> rfl

/-! ## What comes of a reading -/

section Outcome

variable {order : Order} {program : Program} {argv : List Text} {answers : List Answer}
  {operands : List Text}

theorem ends_iff {result : Except Usage (List UInt8)} :
    Ends order program argv result ↔
      ∃ answers operands, Reads order program.options Text.empty (argv.drop 1) answers operands ∧
        (program.parser.outcome answers operands >>= handleArguments) = result := by
  constructor
  · rintro ⟨fuel, run⟩
    rcases Option.map_eq_some_iff.mp run with ⟨parsed, parses, rfl⟩
    rcases parsesTo_iff.mp ⟨fuel, parses⟩ with ⟨answers, operands, reads, rfl⟩
    exact ⟨answers, operands, reads, rfl⟩
  · rintro ⟨answers, operands, reads, rfl⟩
    rcases program.parser.parsesTo_outcome reads with ⟨fuel, run⟩
    exact ⟨fuel, by rw [main, run]; rfl⟩

/-- Where all options are stored, the value of `c` decides. -/
theorem outcome_of_kept (kept : ∀ answer ∈ answers, Kept answer) :
    program.parser.outcome answers operands =
      .ok { settings := answers.foldl program.parser.keep .initial, operands := operands } := by
  refine program.parser.outcome_eq_ok_iff.mpr ⟨fun answer member => ?_, rfl, rfl⟩
  rcases kept answer member <;> rfl

theorem raised_iff (kept : ∀ answer ∈ answers, Kept answer) {letter : UInt8}
    (raises : program.parser.cases.lookup letter = some .raise) :
    (answers.foldl program.parser.keep .initial).raised letter = true ↔
      .option letter none ∈ answers := by
  rw [program.parser.raised_foldl raises, ← mem_given_iff]
  constructor
  · rintro (raised | some)
    · cases raised
    · rcases List.exists_mem_of_ne_nil _ some with ⟨optarg, member⟩
      cases kept _ (mem_given_iff.mp member) with
      | optionA | optionB => exact member
      | optionC value => cases raises
  · exact fun member => Or.inr (List.ne_nil_of_mem member)

theorem values_eq : (answers.foldl program.parser.keep .initial).values letterC =
    (given letterC answers).getLast?.getD none :=
  program.parser.values_foldl rfl answers .initial

theorem values_eq_none_iff (kept : ∀ answer ∈ answers, Kept answer) :
    (answers.foldl program.parser.keep .initial).values letterC = none ↔
      ∀ value, .option letterC (some value) ∉ answers := by
  rw [values_eq]
  constructor
  · intro none value member
    have member := mem_given_iff.mpr member
    cases last : (given letterC answers).getLast? with
    | none =>
        rw [List.getLast?_eq_none_iff.mp last] at member
        cases member
    | some optarg =>
        rw [last] at none
        have lastGiven := kept _ (mem_given_iff.mp (List.mem_of_getLast? last))
        cases lastGiven
        cases none
  · intro missing
    cases last : (given letterC answers).getLast? with
    | none => rfl
    | some optarg =>
        have member := mem_given_iff.mp (List.mem_of_getLast? last)
        cases kept _ member with
        | optionC value => exact absurd member (missing value)

/-- The report that the settings make. -/
theorem handleArguments_eq_ok_iff (kept : ∀ answer ∈ answers, Kept answer) {text : List UInt8} :
    handleArguments
        { settings := answers.foldl program.parser.keep .initial, operands := operands } =
          .ok text ↔
      ∃ report, report.unnamed = operands ∧ Asks answers report ∧ text = report.text := by
  have last := @values_eq program answers
  rw [handleArguments]
  constructor
  · intro printed
    cases value : (answers.foldl program.parser.keep .initial).values letterC with
    | none =>
        rw [value] at printed
        cases printed
    | some given =>
        rw [value] at printed last
        cases printed
        refine ⟨_, rfl, ⟨kept, raised_iff kept rfl, raised_iff kept rfl, ?_⟩, rfl⟩
        exact (Option.getD_eq_iff.mp last.symm).resolve_right fun none => nomatch none.2
  · rintro ⟨⟨optionA, optionB, optionC, unnamed⟩, rfl, asks, rfl⟩
    have valueEq : (answers.foldl program.parser.keep .initial).values letterC = some optionC := by
      rw [last, asks.optionC]
      rfl
    have raisedA : (answers.foldl program.parser.keep .initial).raised letterA = optionA :=
      Bool.eq_iff_iff.mpr ((raised_iff kept rfl).trans asks.optionA.symm)
    have raisedB : (answers.foldl program.parser.keep .initial).raised letterB = optionB :=
      Bool.eq_iff_iff.mpr ((raised_iff kept rfl).trans asks.optionB.symm)
    simp only [valueEq, raisedA, raisedB]

theorem handleArguments_eq_error_iff (kept : ∀ answer ∈ answers, Kept answer) {usage : Usage} :
    handleArguments
        { settings := answers.foldl program.parser.keep .initial, operands := operands } =
          .error usage ↔
      (∀ value, .option letterC (some value) ∉ answers) ∧
        usage = .failure (ascii "-c is required") := by
  rw [← @values_eq_none_iff program _ kept, handleArguments]
  cases (answers.foldl program.parser.keep .initial).values letterC with
  | none => exact ⟨fun rejected => ⟨rfl, (Except.error.inj rejected).symm⟩,
      fun ⟨_, same⟩ => congrArg Except.error same.symm⟩
  | some value => exact ⟨nofun, nofun⟩

/-- A reading with a report of what is asked for is printed. -/
theorem printed_iff (valid : ∀ answer ∈ answers, answer.Valid program.options)
    {text : List UInt8} :
    (program.parser.outcome answers operands >>= handleArguments) = .ok text ↔
      ∃ report, report.unnamed = operands ∧ Asks answers report ∧ text = report.text := by
  constructor
  · intro printed
    cases outcome : program.parser.outcome answers operands with
    | error usage =>
        rw [outcome] at printed
        cases printed
    | ok arguments =>
        rw [outcome] at printed
        rcases program.parser.outcome_eq_ok_iff.mp outcome with ⟨goOn, _, rfl⟩
        have kept : ∀ answer ∈ answers, Kept answer := fun answer member =>
          (ending_eq_none_iff (valid answer member)).mp (goOn answer member)
        exact (handleArguments_eq_ok_iff kept).mp printed
  · rintro ⟨report, unnamed, asks, printed⟩
    rw [outcome_of_kept asks.kept]
    exact (handleArguments_eq_ok_iff asks.kept).mpr ⟨report, unnamed, asks, printed⟩

theorem refusal_of_ne {optopt : UInt8} (other : optopt ≠ letterC) :
    program.parser.refusal optopt = unknownOption optopt := by
  have different : (optopt == letterC) = false := beq_eq_false_iff_ne.mpr other
  simp [Parser.refusal, Program.parser, List.lookup_cons, List.lookup_nil, different]

/-- The first answer that is not stored ends the program. -/
theorem outcome_of_stop {before after : List Answer} {answer : Answer} {usage : Usage}
    (kept : ∀ answer ∈ before, Kept answer) (ends : program.parser.ending answer = some usage) :
    program.parser.outcome (before ++ answer :: after) operands = .error usage := by
  refine program.parser.outcome_eq_error_iff.mpr
    (Or.inl ⟨before, answer, after, rfl, ends, fun answer member => ?_⟩)
  rcases kept answer member <;> rfl

theorem rejected_of_stop {before after : List Answer} {answer : Answer} {usage : Usage}
    (kept : ∀ answer ∈ before, Kept answer) (valid : answer.Valid program.options)
    (ends : program.parser.ending answer = some usage) :
    Rejected (before ++ answer :: after) usage := by
  rcases answer_cases valid with stored | rfl | ⟨optopt, rfl⟩
  · rw [(ending_eq_none_iff valid).mpr stored] at ends
    cases ends
  · cases ends
    exact .help kept
  · by_cases missing : optopt = letterC
    · subst missing
      cases ends
      exact .noValue kept
    · have usageEq : Usage.failure (program.parser.refusal optopt) = usage := Option.some.inj ends
      rw [← usageEq, refusal_of_ne missing]
      exact .unknown kept missing

theorem rejected_iff (valid : ∀ answer ∈ answers, answer.Valid program.options) {usage : Usage} :
    (program.parser.outcome answers operands >>= handleArguments) = .error usage ↔
      Rejected answers usage := by
  constructor
  · intro rejected
    cases outcome : program.parser.outcome answers operands with
    | error reason =>
        rw [outcome] at rejected
        cases rejected
        rcases program.parser.outcome_eq_error_iff.mp outcome with
          ⟨before, answer, after, rfl, ends, goOn⟩ | ⟨_, miscounted⟩
        · refine rejected_of_stop (fun kept member => ?_)
            (valid answer (List.mem_append_right _ List.mem_cons_self)) ends
          exact (ending_eq_none_iff (valid kept (List.mem_append_left _ member))).mp
            (goOn kept member)
        · cases miscounted
    | ok arguments =>
        rw [outcome] at rejected
        rcases program.parser.outcome_eq_ok_iff.mp outcome with ⟨goOn, _, rfl⟩
        have kept : ∀ answer ∈ answers, Kept answer := fun answer member =>
          (ending_eq_none_iff (valid answer member)).mp (goOn answer member)
        rcases (handleArguments_eq_error_iff kept).mp rejected with ⟨missing, rfl⟩
        exact .required kept missing
  · intro rejected
    cases rejected with
    | help kept | noValue kept =>
        rw [outcome_of_stop kept rfl]
        rfl
    | unknown kept other =>
        rename_i before after optopt
        have ends : program.parser.ending (.question optopt) =
            some (.failure (unknownOption optopt)) := by
          rw [← @refusal_of_ne program _ other]
          rfl
        rw [outcome_of_stop kept ends]
        rfl
    | required kept missing =>
        rw [outcome_of_kept kept]
        exact (handleArguments_eq_error_iff kept).mpr ⟨missing, rfl⟩

end Outcome

/-! ## Options in words -/

section Words

variable {order : Order} {program : Program} {operands : List Text}

theorem isOption_word {arg : Text} {letter : UInt8} (bytesEq : arg.bytes = [dash, letter])
    (different : letter ≠ dash) : IsOption arg := by
  rw [IsOption, IsOperand, bytesEq]
  simp [different]

/-- An option of one letter, in front of the rest of the command line. -/
theorem reads_word {arg : Text} {letter : UInt8} (bytesEq : arg.bytes = [dash, letter])
    (different : letter ≠ dash) {after later : List Text} {answer : Answer}
    {answers : List Answer}
    (read : LetterReads program.options.optstring letter Text.empty after answer Text.empty later)
    (reads : Reads order program.options Text.empty later answers operands) :
    Reads order program.options Text.empty (arg :: after) (answer :: answers) operands := by
  have short : ∀ table, ¬Names program.options arg table := by
    rintro table ⟨_, second⟩
    rw [bytesEq] at second
    exact different second
  have lettersEq : (arg.drop 1).bytes = letter :: [] := by
    rw [Text.bytes_drop, bytesEq]
    rfl
  have last : (arg.drop 1).drop 1 = Text.empty := by
    apply Text.eq_empty
    rw [Text.bytes_drop, lettersEq]
    rfl
  exact .opens (isOption_word bytesEq different) short (.letter lettersEq (last ▸ read) reads)

theorem reads_words (asked : List Asked) :
    Reads order program.options Text.empty (asked.flatMap Asked.words ++ dashes :: operands)
      (asked.map Asked.answer) operands := by
  have optstring : program.options.optstring = ascii "habc:" := by cases program <;> rfl
  induction asked with
  | nil => exact .dashes rfl
  | cons option asked ih =>
      cases option with
      | optionA =>
          refine reads_word rfl (by decide) (.flag ?_) ih
          rw [optstring]
          decide
      | optionB =>
          refine reads_word rfl (by decide) (.flag ?_) ih
          rw [optstring]
          decide
      | optionC value =>
          refine reads_word rfl (by decide) (.separate ?_ rfl) ih
          rw [optstring]
          decide

theorem given_answer (asked : List Asked) :
    given letterC (asked.map Asked.answer) = (asked.filterMap Asked.value).map some := by
  induction asked with
  | nil => rfl
  | cons option asked ih =>
      cases option with
      | optionA | optionB => exact ih
      | optionC value => exact congrArg (some value :: ·) ih

theorem asks_answers {asked : List Asked} {value : Text}
    (last : (asked.filterMap Asked.value).getLast? = some value) :
    Asks (asked.map Asked.answer)
      { optionA := decide (.optionA ∈ asked)
        optionB := decide (.optionB ∈ asked)
        optionC := value
        unnamed := operands } := by
  constructor
  · intro answer member
    rcases List.mem_map.mp member with ⟨_ | _ | value, _, rfl⟩
    · exact .optionA
    · exact .optionB
    · exact .optionC value
  · rw [decide_eq_true_eq, List.mem_map]
    constructor
    · exact fun member => ⟨_, member, rfl⟩
    · rintro ⟨_ | _ | _, member, same⟩
      · exact member
      · cases same
      · cases same
  · rw [decide_eq_true_eq, List.mem_map]
    constructor
    · exact fun member => ⟨_, member, rfl⟩
    · rintro ⟨_ | _ | _, member, same⟩
      · cases same
      · exact member
      · cases same
  · rw [given_answer, List.getLast?_map, last]
    rfl

end Words

end CExamples.CommandLineArguments
