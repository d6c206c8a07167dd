import CExamples.CommandLine.ParseArguments

/-!
# The parsers of the programs

The `parse_arguments` of the programs whose only option is `h`.  They end at the first
argument that is not an operand, unless it is `--`, so what they make of a command line
can be said without the grammar.
-/

namespace CExamples.CommandLine

open CExamples.Word

def letterH : UInt8 :=
  104

/-- Programs with options that store a value, besides `h`. -/
def valued (optstring : String) (letters : List UInt8) (required : List (Nat × String))
    (limit : Option (Nat × String)) : Parser where
  options := { optstring := ascii optstring, long := none }
  cases := (letterH, .help) :: letters.map (·, .store)
  refusals := []
  fallback := { exitCode := 1, message := none }
  required := required.map fun test => (test.1, ascii test.2)
  limit := limit.map fun test => (test.1, ascii test.2)

/-- Programs with `h` as their only option. -/
def plain (required : List (Nat × String)) (limit : Option (Nat × String)) : Parser :=
  valued "h" [] required limit

/-- Programs that take one operand. -/
def single (missing : String) : Parser :=
  plain [(0, missing)] (some (1, "Too many arguments."))

/-- Programs that take two operands. -/
def pair : Parser :=
  plain [(1, "Too few arguments.")] (some (2, "Too many arguments."))

/-- `pipe/*`, `io-multiplexing/client.c`, `domain-socket/*`, `files/fdopen`,
`pthread-condition/pthread_cond_wait-pthread_cond_signal` and
`shared-memory/mmap-munmap/client.c` -/
def filePath : Parser :=
  single "The file path is required"

/-- `file-system/chdir` -/
def directoryPath : Parser :=
  single "The directory path is required"

/-- `users/setuid` and `users/seteuid` -/
def userId : Parser :=
  single "The user id is required"

/-- `groups/setgid` and `groups/setegid` -/
def groupId : Parser :=
  single "The group id is required"

/-- `tcp/shutdown/server.c`, `sockets/setsockopt/server.c`,
`udp/sendto-recvfrom/server.c` and `sockets/getsockopt` -/
def addressAndPort : Parser :=
  plain [(0, "The ip address and port are required"), (1, "The port is required")]
    (some (2, "Error: Too many arguments."))

/-- `networking-functions/connect`, `tcp/shutdown/client.c` and
`sockets/setsockopt/client.c` -/
def targetAndPort : Parser :=
  pair

/-- `networking-functions/bind`, which looks for one operand and stores two -/
def bindAddress : Parser :=
  plain [(0, "The IP address or hostname is required.")] (some (2, "Too many arguments."))

/-- `udp/sendto-recvfrom/client.c`, which looks for two operands and stores three -/
def message : Parser :=
  plain [(1, "Too few arguments.")] (some (3, "Too many arguments."))

/-! ## Programs with `h` alone -/

/-- The operands stand on the command line, with or without `--` in front of the last
of them. -/
inductive Spelled (order : Order) : List Text → List Text → Prop
  | bare {args : List Text} (permute : order = .permute → ∀ arg ∈ args, IsOperand arg)
      (posix : order = .posix → ∀ arg ∈ args.head?, IsOperand arg) : Spelled order args args
  | dashes {before after : List Text} {arg : Text} (isDashes : arg.bytes = [dash, dash])
      (permute : ∀ operand ∈ before, IsOperand operand) (posix : order = .posix → before = []) :
      Spelled order (before ++ arg :: after) (before ++ after)

/-- An argument is the first that the scanner takes for an option. -/
def FirstOption (order : Order) (args : List Text) (arg : Text) : Prop :=
  ∃ before after, args = before ++ arg :: after ∧ (∀ operand ∈ before, IsOperand operand) ∧
    (order = .posix → before = []) ∧ IsOption arg

/-- The letter behind the dash. -/
def firstLetter (arg : Text) : UInt8 :=
  Text.first (arg.bytes.drop 1)

/-- What `usage` is called with at an option. -/
def refused (arg : Text) : Usage :=
  if firstLetter arg = letterH then .help else .failure (unknownOption (firstLetter arg))

section Plain

variable {order : Order} {required : List (Nat × String)} {limit : Option (Nat × String)}
  {args operands : List Text} {arg : Text}

/-- Operands in front are passed over. -/
theorem reads_append {options : Options} {before after operands : List Text}
    {answers : List Answer} (permute : ∀ operand ∈ before, IsOperand operand)
    (posix : order = .posix → before = [])
    (reads : Reads order options Text.empty after answers operands) :
    Reads order options Text.empty (before ++ after) answers (before ++ operands) := by
  cases order with
  | posix =>
      rw [posix rfl]
      exact reads
  | permute =>
      induction before with
      | nil => exact reads
      | cons first before ih =>
          have both := List.forall_mem_cons.mp permute
          exact .passes rfl both.1 (ih both.2 nofun)

theorem reads_of_spelled {options : Options} (spelled : Spelled order args operands) :
    Reads order options Text.empty args [] operands := by
  cases spelled with
  | dashes isDashes permute posix => exact reads_append permute posix (.dashes isDashes)
  | bare permute posix =>
      cases order with
      | permute =>
          have passed : Reads .permute options Text.empty (args ++ []) [] (args ++ []) :=
            reads_append (permute rfl) nofun .ends
          rwa [List.append_nil] at passed
      | posix =>
          cases args with
          | nil => exact .ends
          | cons first rest => exact .stops rfl (posix rfl first rfl)

/-- The first option is answered with `h` or with `?`, whatever comes behind it. -/
theorem exists_reads_of_firstOption (first : FirstOption order args arg) :
    ∃ answers operands, Reads order (plain required limit).options Text.empty args
      ((if firstLetter arg = letterH then .option letterH none else .question (firstLetter arg)) ::
        answers) operands := by
  rcases first with ⟨before, after, rfl, permute, posix, option⟩
  rcases exists_letter option with ⟨letter, behind, bytesEq⟩
  have letterEq : firstLetter arg = letter := by
    rw [firstLetter, bytesEq]
    rfl
  have lettersEq : (arg.drop 1).bytes = letter :: behind := by
    rw [Text.bytes_drop, bytesEq]
    rfl
  rcases exists_reads order (plain required limit).options ((arg.drop 1).drop 1) after with
    ⟨answers, operands, reads⟩
  refine ⟨answers, before ++ operands, reads_append permute posix
    (.opens option (fun table names => nomatch names.1) (.letter lettersEq ?_ reads))⟩
  have optstring : ascii "h" = [letterH] := by decide
  change LetterReads (ascii "h") letter _ _ _ _ _
  rw [optstring, letterEq]
  by_cases help : letter = letterH
  · rw [if_pos help, help]
    exact .flag (by decide)
  · rw [if_neg help]
    exact .unknown (by simp [declared, Ne.symm help])

theorem ending_of_firstOption :
    (plain required limit).ending
        (if firstLetter arg = letterH then .option letterH none
          else .question (firstLetter arg)) = some (refused arg) := by
  rw [refused]
  split <;> rfl

theorem Spelled.passed (operand : IsOperand arg) (spelled : Spelled .permute args operands) :
    Spelled .permute (arg :: args) (arg :: operands) := by
  cases spelled with
  | bare permute posix =>
      exact .bare (fun _ => List.forall_mem_cons.mpr ⟨operand, permute rfl⟩) nofun
  | @dashes before after last isDashes permute posix =>
      exact @Spelled.dashes .permute (arg :: before) after last isDashes
        (List.forall_mem_cons.mpr ⟨operand, permute⟩) nofun

/-- A command line either spells operands or has an option. -/
theorem exists_spelled_or_firstOption (order : Order) (args : List Text) :
    (∃ operands, Spelled order args operands) ∨ ∃ arg, FirstOption order args arg := by
  induction args with
  | nil => exact Or.inl ⟨[], .bare (fun _ => List.forall_mem_nil _) (fun _ => nofun)⟩
  | cons arg rest ih =>
      by_cases operand : IsOperand arg
      · cases order with
        | posix =>
            refine Or.inl ⟨arg :: rest, .bare nofun fun _ first isFirst => ?_⟩
            cases isFirst
            exact operand
        | permute =>
            rcases ih with ⟨operands, spelled⟩ | ⟨option, before, after, rfl, passed, _, isOption⟩
            · exact Or.inl ⟨arg :: operands, spelled.passed operand⟩
            · exact Or.inr ⟨option, arg :: before, after, rfl,
                List.forall_mem_cons.mpr ⟨operand, passed⟩, nofun, isOption⟩
      · by_cases isDashes : arg.bytes = [dash, dash]
        · exact Or.inl ⟨rest, @Spelled.dashes order [] rest arg isDashes (List.forall_mem_nil _)
            fun _ => rfl⟩
        · exact Or.inr ⟨arg, [], rest, rfl, List.forall_mem_nil _, fun _ => rfl,
            operand, isDashes⟩

/-- Operands that are spelled are counted. -/
theorem parsesTo_of_spelled {argv : List Text} (spelled : Spelled order (argv.drop 1) operands) :
    ParsesTo order (plain required limit) argv
      (match (plain required limit).miscounted operands.length with
        | some usage => .error usage
        | none => .ok { settings := .initial, operands := operands }) :=
  (plain required limit).parsesTo_outcome (reads_of_spelled spelled)

/-- An option ends the program. -/
theorem parsesTo_of_firstOption {argv : List Text} (first : FirstOption order (argv.drop 1) arg) :
    ParsesTo order (plain required limit) argv (.error (refused arg)) := by
  rcases exists_reads_of_firstOption first with ⟨answers, operands, reads⟩
  have outcome := (plain required limit).parsesTo_outcome reads
  rwa [Parser.outcome, List.findSome?_cons, ending_of_firstOption] at outcome

end Plain

/-! ## Programs that go on with their operands -/

section Programs

variable {ρ : Type}

/-- `parse_arguments` and what `main` does with the arguments, with fuel for the loop over
the options; `handle_arguments` can still call `usage`. -/
def goOn (fuel : Nat) (order : Order) (parser : Parser) (body : Arguments → Except Usage ρ)
    (argv : List Text) : Option (Except Usage ρ) :=
  (parseArguments fuel order parser argv).map (· >>= body)

/-- The program ends with `result`, which may be a call of `usage`. -/
def Ends (order : Order) (parser : Parser) (body : Arguments → Except Usage ρ) (argv : List Text)
    (result : Except Usage ρ) : Prop :=
  ∃ fuel, goOn fuel order parser body argv = some result

variable {order : Order} {parser : Parser} {body : Arguments → Except Usage ρ} {argv : List Text}

theorem ParsesTo.ends {parsed : Except Usage Arguments}
    (parses : ParsesTo order parser argv parsed) :
    Ends order parser body argv (parsed >>= body) := by
  rcases parses with ⟨fuel, run⟩
  exact ⟨fuel, by rw [goOn, run]; rfl⟩

theorem Ends.unique {result other : Except Usage ρ} (ends : Ends order parser body argv result)
    (again : Ends order parser body argv other) : result = other := by
  rcases ends with ⟨fuel, run⟩
  rcases again with ⟨more, rerun⟩
  rcases Option.map_eq_some_iff.mp run with ⟨left, parses, rfl⟩
  rcases Option.map_eq_some_iff.mp rerun with ⟨right, parsesAgain, rfl⟩
  rw [ParsesTo.unique ⟨fuel, parses⟩ ⟨more, parsesAgain⟩]

variable {required : List (Nat × String)} {limit : Option (Nat × String)}

/-- What comes of operands that are spelled. -/
def ofOperands (parser : Parser) (body : Arguments → Except Usage ρ) (operands : List Text) :
    Except Usage ρ :=
  match parser.miscounted operands.length with
  | some usage => .error usage
  | none => body { settings := .initial, operands := operands }

/-- A program with `h` alone ends at its first option, or goes on with its operands. -/
theorem plain_ends_iff {result : Except Usage ρ} :
    Ends order (plain required limit) body argv result ↔
      (∃ arg, FirstOption order (argv.drop 1) arg ∧ result = .error (refused arg)) ∨
        ∃ operands, Spelled order (argv.drop 1) operands ∧
          result = ofOperands (plain required limit) body operands := by
  have spelledEnds (operands : List Text) (spelled : Spelled order (argv.drop 1) operands) :
      Ends order (plain required limit) body argv
        (ofOperands (plain required limit) body operands) := by
    have ends := @ParsesTo.ends ρ order (plain required limit) body argv _
      (parsesTo_of_spelled spelled)
    rw [ofOperands]
    cases counted : (plain required limit).miscounted operands.length with
    | some usage | none =>
        rw [counted] at ends
        exact ends
  constructor
  · intro ends
    rcases exists_spelled_or_firstOption order (argv.drop 1) with
      ⟨operands, spelled⟩ | ⟨arg, first⟩
    · exact Or.inr ⟨operands, spelled, ends.unique (spelledEnds operands spelled)⟩
    · exact Or.inl ⟨arg, first, ends.unique (parsesTo_of_firstOption first).ends⟩
  · rintro (⟨arg, first, rfl⟩ | ⟨operands, spelled, rfl⟩)
    · exact (parsesTo_of_firstOption first).ends
    · exact spelledEnds operands spelled

/-- `if(operand == NULL) usage(binary_name, EXIT_FAILURE, message);` -/
def demand (operand : Option Text) (message : String) : Except Usage Text :=
  match operand with
  | some text => .ok text
  | none => .error (.failure (ascii message))

/-- How a program ends that goes on with one operand. -/
inductive TakesOne (order : Order) (missing : String) (body : Text → Except Usage ρ)
    (args : List Text) : Except Usage ρ → Prop
  | option {arg : Text} (first : FirstOption order args arg) :
      TakesOne order missing body args (.error (refused arg))
  | missing (spelled : Spelled order args []) :
      TakesOne order missing body args (.error (.failure (ascii missing)))
  | tooMany {operand other : Text} {more : List Text}
      (spelled : Spelled order args (operand :: other :: more)) :
      TakesOne order missing body args (.error (.failure (ascii "Too many arguments.")))
  | runs {operand : Text} (spelled : Spelled order args [operand]) :
      TakesOne order missing body args (body operand)

/-- How a program ends that goes on with two operands. -/
inductive TakesTwo (order : Order) (body : Text → Text → Except Usage ρ) (args : List Text) :
    Except Usage ρ → Prop
  | option {arg : Text} (first : FirstOption order args arg) :
      TakesTwo order body args (.error (refused arg))
  | tooFew {operands : List Text} (spelled : Spelled order args operands)
      (few : operands.length < 2) :
      TakesTwo order body args (.error (.failure (ascii "Too few arguments.")))
  | tooMany {operands : List Text} (spelled : Spelled order args operands)
      (many : 2 < operands.length) :
      TakesTwo order body args (.error (.failure (ascii "Too many arguments.")))
  | runs {operand other : Text} (spelled : Spelled order args [operand, other]) :
      TakesTwo order body args (body operand other)

/-- Only one operand is gone on with. -/
theorem single_ends_iff {missing : String} {result : Except Usage ρ} :
    Ends order (single missing) body argv result ↔
      TakesOne order missing
        (fun operand => body { settings := .initial, operands := [operand] }) (argv.drop 1)
        result := by
  rw [single, plain_ends_iff]
  constructor
  · rintro (⟨arg, first, rfl⟩ | ⟨_ | ⟨operand, _ | ⟨other, more⟩⟩, spelled, rfl⟩)
    · exact .option first
    · exact .missing spelled
    · exact .runs spelled
    · exact .tooMany spelled
  · intro takes
    cases takes with
    | option first => exact Or.inl ⟨_, first, rfl⟩
    | missing spelled | tooMany spelled | runs spelled => exact Or.inr ⟨_, spelled, rfl⟩

theorem pair_ends_iff {result : Except Usage ρ} :
    Ends order pair body argv result ↔
      TakesTwo order
        (fun operand other => body { settings := .initial, operands := [operand, other] })
        (argv.drop 1) result := by
  rw [pair, plain_ends_iff]
  constructor
  · rintro (⟨arg, first, rfl⟩ |
      ⟨_ | ⟨operand, _ | ⟨other, _ | ⟨third, more⟩⟩⟩, spelled, rfl⟩)
    · exact .option first
    · exact .tooFew spelled (Nat.zero_lt_succ 1)
    · exact .tooFew spelled (Nat.one_lt_two)
    · exact .runs spelled
    · exact .tooMany spelled (by simp)
  · intro takes
    cases takes with
    | option first => exact Or.inl ⟨_, first, rfl⟩
    | runs spelled => exact Or.inr ⟨_, spelled, rfl⟩
    | @tooFew operands spelled few =>
        refine Or.inr ⟨_, spelled, ?_⟩
        rcases operands with _ | ⟨operand, _ | ⟨other, more⟩⟩
        · rfl
        · rfl
        · exact absurd few (by simp)
    | @tooMany operands spelled many =>
        refine Or.inr ⟨_, spelled, ?_⟩
        rcases operands with _ | ⟨operand, _ | ⟨other, _ | ⟨third, more⟩⟩⟩
        · exact absurd many (by simp)
        · exact absurd many (by simp)
        · exact absurd many (by simp)
        · rfl

end Programs

end CExamples.CommandLine
