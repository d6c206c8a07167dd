import CExamples.CommandLine.Parsers
import CExamples.FileSystem.Chown

/-!
# Programs that hand ids to a system call

The command lines of `file-system/chown`, `users/setuid`, `users/seteuid`,
`users/setreuid`, `groups/setgid`, `groups/setegid` and `groups/setregid`, up to the
system call.  An id is the operand or the value of an option, the last one that is
given.  `setregid` alone does not look at the operands.
-/

namespace CExamples.IdPrograms

open CExamples.CommandLine
open CExamples.FileSystem.Chown (Honours Slips getIdMax honours_iff parseGidT parseUidT require)
open CExamples.Number
open CExamples.Word

inductive Program
  | chown
  | setuid
  | seteuid
  | setreuid
  | setgid
  | setegid
  | setregid
  deriving DecidableEq, Repr

/-- `u` -/
def letterU : UInt8 :=
  117

/-- `g` -/
def letterG : UInt8 :=
  103

/-- `e` -/
def letterE : UInt8 :=
  101

/-- Where the string for an id stands. -/
inductive Source
  | operand
  | value (letter : UInt8)
  deriving DecidableEq, Repr

/-- An id that a program wants: its string, what `handle_arguments` says without it, and
whether it is parsed as the id of a group. -/
structure Wanted where
  source : Source
  missing : String
  group : Bool

namespace Program

/-- The options with a value. -/
def letters : Program → List UInt8
  | chown => [letterU, letterG]
  | setreuid => [letterU, letterE]
  | setregid => [letterG, letterE]
  | _ => []

/-- `parse_arguments` -/
def parser : Program → Parser
  | chown =>
      valued "hu:g:" (letters chown) [(0, "The file path is required")]
        (some (1, "Too many arguments."))
  | setuid | seteuid => userId
  | setreuid => valued "hu:e:" (letters setreuid) [] (some (0, "Unexpected extra arguments"))
  | setgid | setegid => groupId
  | setregid => valued "hg:e:" (letters setregid) [] none

/-- The ids of `handle_arguments`. -/
def wanted : Program → List Wanted
  | chown =>
      [⟨.value letterU, "The user id is required.", false⟩,
        ⟨.value letterG, "The group id is required.", true⟩]
  | setuid | seteuid => [⟨.operand, "The user id are required.", false⟩]
  | setreuid =>
      [⟨.value letterU, "The user id are required.", false⟩,
        ⟨.value letterE, "The effective user id are required.", false⟩]
  | setgid | setegid => [⟨.operand, "The group id is required.", true⟩]
  | setregid =>
      [⟨.value letterG, "The group id is required.", true⟩,
        ⟨.value letterE, "The effective group id is required.", true⟩]

end Program

/-- The string for an id, or `NULL`. -/
def Wanted.find (wanted : Wanted) (arguments : Arguments) : Option Text :=
  match wanted.source with
  | .operand => arguments.operands[0]?
  | .value letter => arguments.settings.values letter

/-- `parse_uid_t` or `parse_gid_t` -/
def Wanted.parse (wanted : Wanted) (text : Text) : Except Rejection UInt32 :=
  if wanted.group then parseGidT text else parseUidT text

/-- The arguments of the system call; `chown` has a path. -/
structure Call where
  path : Option Text
  ids : List UInt32
  deriving DecidableEq

/-- The path that `chown` requires. -/
def Program.path (program : Program) (arguments : Arguments) : Except Rejection (Option Text) :=
  if program = .chown then some <$> require arguments.operands[0]? "The path is required."
  else pure none

/-- `handle_arguments` -/
def handleArguments (program : Program) (arguments : Arguments) : Except Rejection Call := do
  let path ← program.path arguments
  let texts ← program.wanted.mapM fun wanted => require (wanted.find arguments) wanted.missing
  let ids ← (program.wanted.zip texts).mapM fun (wanted, text) => wanted.parse text
  pure { path := path, ids := ids }

/-- How a program ends before the system call. -/
inductive End
  | usage (usage : Usage)
  | rejected (rejection : Rejection)
  deriving DecidableEq

/-- What `main` makes of what `parse_arguments` leaves. -/
def handled (program : Program) : Except Usage Arguments → Except End Call
  | .error usage => .error (.usage usage)
  | .ok arguments => (handleArguments program arguments).mapError .rejected

/-- `main` up to the system call, with fuel for the passes of its loop. -/
def commandLine (fuel : Nat) (order : Order) (program : Program) (argv : List Text) :
    Option (Except End Call) :=
  (parseArguments fuel order program.parser argv).map (handled program)

/-- `main` gets to the system call, or ends before it. -/
def Begins (order : Order) (program : Program) (argv : List Text) (result : Except End Call) :
    Prop :=
  ∃ fuel, commandLine fuel order program argv = some result

/-! ## What the programs promise -/

/-- An option of a program, with its value. -/
def Stored (program : Program) (answer : Answer) : Prop :=
  ∃ letter ∈ program.letters, ∃ value, answer = .option letter (some value)

/-- The number of operands is right. -/
def Counts : Program → (count : Nat) → Prop
  | .setreuid, count => count = 0
  | .setregid, _ => True
  | _, count => count = 1

/-- The string for an id on the command line. -/
def Wanted.Given (answers : List Answer) (operands : List Text) (wanted : Wanted) (text : Text) :
    Prop :=
  match wanted.source with
  | .operand => operands[0]? = some text
  | .value letter => (given letter answers).getLast? = some (some text)

/-- The id that the parsers make of a string. -/
def ReadAs (str : Text) (id : UInt32) : Prop :=
  str.bytes = [] ∧ id = 0 ∨
    ∃ denoted, Denotes str.bytes denoted ∧ denoted.natAbs < 2 ^ 64 ∧
      (id.toNat : Int) = denoted % 2 ^ 64

/-- The command line asks for the system call, with the strings `texts` for the ids. -/
structure Asks (program : Program) (answers : List Answer) (operands : List Text)
    (texts : List Text) (call : Call) : Prop where
  stored : ∀ answer ∈ answers, Stored program answer
  counts : Counts program operands.length
  path : call.path = if program = .chown then operands[0]? else none
  given : List.Forall₂ (Wanted.Given answers operands) program.wanted texts
  read : List.Forall₂ ReadAs texts call.ids

/-- What a program promises of its command line. -/
structure Identified (order : Order) (program : Program) (argv : List Text) : Prop where
  ends : ∃ result, Begins order program argv result
  /-- The system call is made with the ids that are asked for. -/
  calls : ∀ call, Begins order program argv (.ok call) ↔
    ∃ answers operands texts,
      Reads order program.parser.options Text.empty (argv.drop 1) answers operands ∧
        Asks program answers operands texts call
  /-- These are what the user has typed, unless a string slips through the tests. -/
  honest : ∀ call answers operands texts,
    Reads order program.parser.options Text.empty (argv.drop 1) answers operands →
    Asks program answers operands texts call →
    (List.Forall₂ Honours texts call.ids ↔ ∀ text ∈ texts, ¬Slips text)
  /-- The program ends well before the call only when it is asked for help. -/
  helps : ∀ usage, Begins order program argv (.error (.usage usage)) →
    (usage.exitCode = 0 ↔
      ∃ before after operands,
        Reads order program.parser.options Text.empty (argv.drop 1)
          (before ++ .option letterH none :: after) operands ∧
          ∀ answer ∈ before, Stored program answer)

/-! ## The options of the programs -/

section Options

variable {program : Program} {letter : UInt8} {takes : Bool} {letters : List UInt8}

theorem declared_flatMap (noColon : colon ∉ letters) :
    declared (letters.flatMap fun name => [name, colon]) letter = some takes ↔
      takes = true ∧ letter ∈ letters := by
  induction letters with
  | nil => simp [declared]
  | cons first letters ih =>
      have noFirst : first ≠ colon := fun same => noColon (same ▸ List.mem_cons_self)
      have rest := ih fun member => noColon (List.mem_cons_of_mem first member)
      rw [List.flatMap_cons, List.cons_append, declared]
      by_cases same : first = letter
      · subst same
        simp [noFirst, eq_comm]
      · have noneColon : ¬(colon = letter ∧ letter ≠ colon) := fun both => both.2 both.1.symm
        rw [if_neg fun both => same both.1, List.cons_append, List.nil_append, declared,
          if_neg noneColon, rest, List.mem_cons]
        simp [Ne.symm same]

theorem optstring_eq (program : Program) :
    program.parser.options.optstring =
      letterH :: program.letters.flatMap fun name => [name, colon] := by
  cases program <;> decide

theorem cases_eq (program : Program) :
    program.parser.cases = (letterH, .help) :: program.letters.map (·, .store) := by
  cases program <;> rfl

theorem declared_iff :
    declared program.parser.options.optstring letter = some takes ↔
      takes = false ∧ letter = letterH ∨ takes = true ∧ letter ∈ program.letters := by
  have noColon : colon ∉ program.letters := by cases program <;> decide
  have noH : letterH ∉ program.letters := by cases program <;> decide
  have bare : (program.letters.flatMap fun name => [name, colon]).head? ≠ some colon := by
    cases program <;> decide
  rw [optstring_eq, declared]
  by_cases help : letterH = letter
  · subst help
    rw [if_pos ⟨rfl, by decide⟩]
    simp [noH, bare, eq_comm]
  · rw [if_neg fun both => help both.1, declared_flatMap noColon]
    simp [Ne.symm help]

theorem lookup_of_mem (member : letter ∈ program.letters) :
    program.parser.cases.lookup letter = some .store := by
  have noH : letterH ∉ program.letters := by cases program <;> decide
  have different : (letter == letterH) = false :=
    beq_eq_false_iff_ne.mpr fun same => noH (same ▸ member)
  rw [cases_eq, List.lookup_cons, different]
  generalize program.letters = letters at member
  induction letters with
  | nil => cases member
  | cons first letters ih =>
      rw [List.map_cons, List.lookup_cons]
      cases same : letter == first with
      | true => rfl
      | false =>
          apply ih
          exact (List.mem_cons.mp member).resolve_left (beq_eq_false_iff_ne.mp same)

/-- The answers are options with a value, `h`, or `?`. -/
theorem answer_cases {answer : Answer} (valid : answer.Valid program.parser.options) :
    Stored program answer ∨ answer = .option letterH none ∨
      ∃ optopt, answer = .question optopt := by
  cases answer with
  | question optopt => exact Or.inr (Or.inr ⟨optopt, rfl⟩)
  | option letter optarg =>
      have short : program.parser.options.long = none := by cases program <;> rfl
      have known : declared program.parser.options.optstring letter = some optarg.isSome := by
        rcases valid with known | ⟨table, _, long, _⟩
        · exact known
        · rw [short] at long
          cases long
      rcases declared_iff.mp known with ⟨bare, rfl⟩ | ⟨valued, member⟩
      · rw [Option.isSome_eq_false_iff, Option.isNone_iff_eq_none] at bare
        rw [bare]
        exact Or.inr (Or.inl rfl)
      · rcases Option.isSome_iff_exists.mp valued with ⟨value, rfl⟩
        exact Or.inl ⟨letter, member, value, rfl⟩

theorem ending_help : program.parser.ending (.option letterH none) = some .help := by
  rw [Parser.ending, cases_eq]
  rfl

theorem ending_eq_none_iff {answer : Answer} (valid : answer.Valid program.parser.options) :
    program.parser.ending answer = none ↔ Stored program answer := by
  constructor
  · intro goesOn
    rcases answer_cases valid with stored | rfl | ⟨optopt, rfl⟩
    · exact stored
    · rw [ending_help] at goesOn
      cases goesOn
    · cases goesOn
  · rintro ⟨letter, member, value, rfl⟩
    rw [Parser.ending, lookup_of_mem member]

theorem miscounted_eq_none_iff {count : Nat} :
    program.parser.miscounted count = none ↔ Counts program count := by
  cases program with
  | setregid => exact iff_of_true rfl trivial
  | setreuid =>
      change (if 0 < count then some _ else none) = none ↔ count = 0
      rw [ite_eq_right_iff]
      simp
  | _ =>
      rcases count with _ | _ | count
      · refine iff_of_false ?_ (by simp [Counts])
        simp [Parser.miscounted, Program.parser, valued, userId, groupId, single, plain]
      · exact iff_of_true rfl rfl
      · refine iff_of_false ?_ (by simp [Counts])
        simp [Parser.miscounted, Program.parser, valued, userId, groupId, single, plain]

end Options

/-! ## The ids -/

section Ids

variable {program : Program} {answers : List Answer} {operands texts : List Text} {call : Call}

/-- Everything in a list is accepted, in order. -/
theorem mapM_eq_ok_iff {α β ε : Type} {accept : α → Except ε β} {items : List α}
    {results : List β} :
    items.mapM accept = .ok results ↔
      List.Forall₂ (fun item result => accept item = .ok result) items results := by
  induction items generalizing results with
  | nil =>
      rw [List.mapM_nil, List.forall₂_nil_left_iff]
      exact ⟨fun same => (Except.ok.inj same).symm, fun none => congrArg Except.ok none.symm⟩
  | cons item items ih =>
      rw [List.mapM_cons, List.forall₂_cons_left_iff]
      cases first : accept item with
      | error reason => exact iff_of_false nofun fun ⟨_, _, accepted, _⟩ => nomatch accepted
      | ok result =>
          cases rest : items.mapM accept with
          | error reason =>
              refine iff_of_false nofun ?_
              rintro ⟨_, later, _, accepted, _⟩
              rw [ih.mpr accepted] at rest
              cases rest
          | ok later =>
              constructor
              · intro same
                cases same
                exact ⟨result, later, rfl, ih.mp rest, rfl⟩
              · rintro ⟨_, other, same, accepted, rfl⟩
                cases same
                rw [ih.mpr accepted] at rest
                cases rest
                rfl

theorem require_eq_ok_iff {argument : Option Text} {message : String} {text : Text} :
    require argument message = .ok text ↔ argument = some text := by
  cases argument with
  | none => exact ⟨nofun, nofun⟩
  | some other => exact ⟨fun same => congrArg some (Except.ok.inj same),
      fun same => congrArg Except.ok (Option.some.inj same)⟩

/-- Both parsers read a string in one way. -/
theorem parseId_eq_ok_iff_readAs {rejections : Rejections} {unsupported : String} {str : Text}
    {id : UInt32} :
    FileSystem.Chown.parseId rejections (getIdMax unsupported FileSystem.Chown.sizeofId) str =
        .ok id ↔ ReadAs str id := by
  have bound : UInt64.toNat 4294967295 = 4294967295 := rfl
  have small := id.toNat_lt
  rw [FileSystem.Chown.parseId_eq_ok_iff, parseUnsigned_returns_iff, bound, ReadAs]
  constructor
  · rintro (⟨empty, zero⟩ | ⟨denoted, denotes, fits, wrapped, _⟩)
    · exact Or.inl ⟨empty, UInt32.toNat_inj.mp zero⟩
    · exact Or.inr ⟨denoted, denotes, fits, wrapped⟩
  · rintro (⟨empty, rfl⟩ | ⟨denoted, denotes, fits, wrapped⟩)
    · exact Or.inl ⟨empty, rfl⟩
    · exact Or.inr ⟨denoted, denotes, fits, wrapped, by omega⟩

theorem parse_eq_ok_iff {wanted : Wanted} {text : Text} {id : UInt32} :
    wanted.parse text = .ok id ↔ ReadAs text id := by
  rw [Wanted.parse]
  split
  · exact parseId_eq_ok_iff_readAs
  · exact parseId_eq_ok_iff_readAs

/-- The variables of `main` are the strings on the command line. -/
theorem find_eq_some_iff {wanted : Wanted} (member : wanted ∈ program.wanted) {text : Text} :
    wanted.find
        { settings := answers.foldl program.parser.keep .initial, operands := operands } =
          some text ↔
      wanted.Given answers operands text := by
  have known : ∀ wanted ∈ program.wanted, ∀ letter, wanted.source = .value letter →
      letter ∈ program.letters := by
    cases program <;> simp [Program.wanted, Program.letters]
  rw [Wanted.find, Wanted.Given]
  cases source : wanted.source with
  | operand => exact Iff.rfl
  | value letter =>
      have stores := lookup_of_mem (known wanted member letter source)
      have valuesEq := program.parser.values_foldl stores answers .initial
      simp only [valuesEq]
      exact Option.getD_eq_iff.trans (or_iff_left fun none => nomatch none.2)

theorem forall₂_zip_iff {wanted : List Wanted} {ids : List UInt32}
    (length : wanted.length = texts.length) :
    List.Forall₂ (fun (item : Wanted × Text) id => item.1.parse item.2 = .ok id)
        (wanted.zip texts) ids ↔
      List.Forall₂ ReadAs texts ids := by
  have second : (wanted.zip texts).map Prod.snd = texts := List.map_snd_zip length.ge
  simp only [parse_eq_ok_iff]
  rw [← List.forall₂_map_left_iff, second]

theorem path_eq_ok_iff {settings : Settings} {path : Option Text} :
    program.path { settings := settings, operands := operands } = .ok path ↔
      (program = .chown → operands ≠ []) ∧
        path = if program = .chown then operands[0]? else none := by
  rw [Program.path]
  by_cases chown : program = .chown
  · rw [if_pos chown, if_pos chown]
    cases operands with
    | nil => exact iff_of_false nofun fun both => both.1 chown rfl
    | cons operand rest =>
        exact ⟨fun same => ⟨fun _ => List.cons_ne_nil _ _, (Except.ok.inj same).symm⟩,
          fun both => congrArg Except.ok both.2.symm⟩
  · rw [if_neg chown, if_neg chown]
    exact ⟨fun same => ⟨fun is => absurd is chown, (Except.ok.inj same).symm⟩,
      fun both => congrArg Except.ok both.2.symm⟩

/-- The system call that `handle_arguments` prepares. -/
theorem handleArguments_eq_ok_iff :
    handleArguments program
        { settings := answers.foldl program.parser.keep .initial, operands := operands } =
          .ok call ↔
      ((program = .chown → operands ≠ []) ∧
        call.path = if program = .chown then operands[0]? else none) ∧
        ∃ texts, List.Forall₂ (Wanted.Given answers operands) program.wanted texts ∧
          List.Forall₂ ReadAs texts call.ids := by
  have found (texts : List Text) :
      (program.wanted.mapM fun wanted => require (wanted.find
          { settings := answers.foldl program.parser.keep .initial, operands := operands })
          wanted.missing) = .ok texts ↔
        List.Forall₂ (Wanted.Given answers operands) program.wanted texts := by
    rw [mapM_eq_ok_iff, List.forall₂_iff_zip, List.forall₂_iff_zip]
    refine and_congr_right fun _ => forall₂_congr fun wanted text => ?_
    refine forall_congr' fun member => ?_
    rw [require_eq_ok_iff, find_eq_some_iff (List.of_mem_zip member).1]
  rw [handleArguments]
  constructor
  · intro accepted
    rcases bind_eq_ok_iff.mp accepted with ⟨path, pathEq, accepted⟩
    rcases bind_eq_ok_iff.mp accepted with ⟨texts, given, accepted⟩
    rcases bind_eq_ok_iff.mp accepted with ⟨ids, read, same⟩
    cases same
    have given := (found texts).mp given
    refine ⟨path_eq_ok_iff.mp pathEq, texts, given, ?_⟩
    exact (forall₂_zip_iff given.length_eq).mp (mapM_eq_ok_iff.mp read)
  · rintro ⟨pathEq, texts, given, read⟩
    exact bind_eq_ok_iff.mpr ⟨call.path, path_eq_ok_iff.mpr pathEq, bind_eq_ok_iff.mpr
      ⟨texts, (found texts).mpr given, bind_eq_ok_iff.mpr ⟨call.ids,
        mapM_eq_ok_iff.mpr ((forall₂_zip_iff given.length_eq).mpr read), rfl⟩⟩⟩

/-- The ids are what the strings denote, unless one of these slips. -/
theorem forall₂_honours_iff {ids : List UInt32} (read : List.Forall₂ ReadAs texts ids) :
    List.Forall₂ Honours texts ids ↔ ∀ text ∈ texts, ¬Slips text := by
  induction read with
  | nil => simp
  | @cons text id texts ids read _ ih =>
      have accepted : parseUidT text = .ok id := parseId_eq_ok_iff_readAs.mpr read
      rw [List.forall₂_cons, ih, List.forall_mem_cons, honours_iff accepted]

end Ids

/-! ## The command line -/

section Main

variable {order : Order} {program : Program} {argv : List Text} {answers : List Answer}
  {operands : List Text}

theorem begins_of_reads
    (reads : Reads order program.parser.options Text.empty (argv.drop 1) answers operands) :
    Begins order program argv (handled program (program.parser.outcome answers operands)) := by
  rcases program.parser.parsesTo_outcome reads with ⟨fuel, run⟩
  exact ⟨fuel, by rw [commandLine, run]; rfl⟩

theorem Begins.unique {result other : Except End Call} (begins : Begins order program argv result)
    (again : Begins order program argv other) : result = other := by
  rcases begins with ⟨fuel, run⟩
  rcases again with ⟨more, rerun⟩
  rcases Option.map_eq_some_iff.mp run with ⟨left, parses, rfl⟩
  rcases Option.map_eq_some_iff.mp rerun with ⟨right, parsesAgain, rfl⟩
  rw [ParsesTo.unique ⟨fuel, parses⟩ ⟨more, parsesAgain⟩]

theorem handled_eq_ok_iff (valid : ∀ answer ∈ answers, answer.Valid program.parser.options)
    {call : Call} :
    handled program (program.parser.outcome answers operands) = .ok call ↔
      ∃ texts, Asks program answers operands texts call := by
  constructor
  · intro called
    cases outcome : program.parser.outcome answers operands with
    | error usage =>
        rw [outcome] at called
        cases called
    | ok arguments =>
        rcases program.parser.outcome_eq_ok_iff.mp outcome with ⟨goOn, miscounted, rfl⟩
        rw [outcome, handled] at called
        cases result : handleArguments program
            { settings := answers.foldl program.parser.keep .initial, operands := operands } with
        | error rejection =>
            rw [result] at called
            cases called
        | ok prepared =>
            rw [result] at called
            cases called
            rcases handleArguments_eq_ok_iff.mp result with ⟨⟨_, path⟩, texts, given, read⟩
            exact ⟨texts, fun answer member =>
              (ending_eq_none_iff (valid answer member)).mp (goOn answer member),
              miscounted_eq_none_iff.mp miscounted, path, given, read⟩
  · rintro ⟨texts, asks⟩
    have outcome : program.parser.outcome answers operands = .ok
        { settings := answers.foldl program.parser.keep .initial, operands := operands } := by
      refine program.parser.outcome_eq_ok_iff.mpr
        ⟨fun answer member => ?_, miscounted_eq_none_iff.mpr asks.counts, rfl⟩
      exact (ending_eq_none_iff (valid answer member)).mpr (asks.stored answer member)
    have present : program = .chown → operands ≠ [] := by
      rintro rfl rfl
      cases asks.counts
    have prepared := handleArguments_eq_ok_iff.mpr ⟨⟨present, asks.path⟩, texts, asks.given,
      asks.read⟩
    rw [outcome, handled, prepared]
    rfl

/-- `usage` ends the program well only at `h`. -/
theorem exists_help (valid : ∀ answer ∈ answers, answer.Valid program.parser.options)
    {usage : Usage} (ended : program.parser.outcome answers operands = .error usage)
    (success : usage.exitCode = 0) :
    ∃ before after, answers = before ++ .option letterH none :: after ∧
      ∀ answer ∈ before, Stored program answer := by
  rcases program.parser.outcome_eq_error_iff.mp ended with
    ⟨before, answer, after, rfl, ends, goOn⟩ | ⟨_, miscounted⟩
  · have stored : ∀ answer ∈ before, Stored program answer := fun answer member =>
      (ending_eq_none_iff (valid answer (List.mem_append_left _ member))).mp (goOn answer member)
    have here := valid answer (List.mem_append_right _ List.mem_cons_self)
    rcases answer_cases here with kept | rfl | ⟨optopt, rfl⟩
    · rw [(ending_eq_none_iff here).mpr kept] at ends
      cases ends
    · exact ⟨before, after, rfl, stored⟩
    · cases ends
      cases success
  · rw [Parser.miscounted] at miscounted
    split at miscounted
    · cases miscounted
      cases success
    · split at miscounted
      · split at miscounted
        · cases miscounted
          cases success
        · cases miscounted
      · cases miscounted

theorem outcome_of_help {before after : List Answer}
    (valid : ∀ answer ∈ before ++ .option letterH none :: after,
      answer.Valid program.parser.options)
    (stored : ∀ answer ∈ before, Stored program answer) :
    program.parser.outcome (before ++ .option letterH none :: after) operands = .error .help := by
  refine program.parser.outcome_eq_error_iff.mpr
    (Or.inl ⟨before, _, after, rfl, ending_help, fun answer member => ?_⟩)
  exact (ending_eq_none_iff (valid answer (List.mem_append_left _ member))).mpr
    (stored answer member)

end Main

/-- Each of the programs, of every command line. -/
theorem commandLine_identified (order : Order) (program : Program) (argv : List Text) :
    Identified order program argv := by
  rcases exists_reads order program.parser.options Text.empty (argv.drop 1) with
    ⟨answers, operands, reads⟩
  have begun := begins_of_reads reads
  constructor
  · exact ⟨_, begun⟩
  · intro call
    constructor
    · intro begins
      rcases (handled_eq_ok_iff reads.valid).mp (begun.unique begins) with ⟨texts, asks⟩
      exact ⟨answers, operands, texts, reads, asks⟩
    · rintro ⟨answers, operands, texts, reads, asks⟩
      rw [← (handled_eq_ok_iff reads.valid).mpr ⟨texts, asks⟩]
      exact begins_of_reads reads
  · intro call answers operands texts _ asks
    exact forall₂_honours_iff asks.read
  · intro usage begins
    constructor
    · intro success
      cases outcome : program.parser.outcome answers operands with
      | error reason =>
          rw [outcome] at begun
          cases begun.unique begins
          rcases exists_help reads.valid outcome success with ⟨before, after, rfl, stored⟩
          exact ⟨before, after, operands, reads, stored⟩
      | ok arguments =>
          rw [outcome, handled] at begun
          have same := begun.unique begins
          cases result : handleArguments program arguments with
          | error rejection =>
              rw [result] at same
              cases same
          | ok call =>
              rw [result] at same
              cases same
    · rintro ⟨before, after, operands, reads, stored⟩
      have helped := begins_of_reads reads
      rw [outcome_of_help reads.valid stored] at helped
      cases begins.unique helped
      rfl

end CExamples.IdPrograms
