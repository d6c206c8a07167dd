import CExamples.CommandLine.Parsers
import CExamples.FileSystem.Chown
import CExamples.NetworkingFunctions.Port

/-!
# Programs that take an address and a port

The command lines of the programs of `networking-functions`, `network-address`,
`sockets`, `tcp` and `udp` whose only option is `h`.  Their `parse_arguments` does not
always look for all the operands that it stores; `handle_arguments` looks for them
again before it reads the port.
-/

namespace CExamples.AddressPrograms

open CExamples.CommandLine
open CExamples.FileSystem.Chown (require)
open CExamples.NetworkingFunctions
open CExamples.Number
open CExamples.Word

inductive Program
  /-- `networking-functions/bind` -/
  | bind
  /-- `networking-functions/connect` -/
  | connect
  /-- `network-address/getnameinfo` -/
  | getnameinfo
  /-- `sockets/getsockopt` -/
  | getsockopt
  /-- `sockets/setsockopt/server.c` -/
  | setsockoptServer
  /-- `sockets/setsockopt/client.c` -/
  | setsockoptClient
  /-- `tcp/shutdown/server.c` -/
  | shutdownServer
  /-- `tcp/shutdown/client.c` -/
  | shutdownClient
  /-- `udp/sendto-recvfrom/server.c` -/
  | udpServer
  /-- `udp/sendto-recvfrom/client.c` -/
  | udpClient
  deriving DecidableEq, Repr

namespace Program

/-- The operands that `parse_arguments` looks for, and its messages. -/
def required : Program → List (Nat × String)
  | bind => [(0, "The IP address or hostname is required.")]
  | connect | getnameinfo | setsockoptClient | shutdownClient | udpClient =>
      [(1, "Too few arguments.")]
  | getsockopt | setsockoptServer | shutdownServer | udpServer =>
      [(0, "The ip address and port are required"), (1, "The port is required")]

/-- The most operands, and the message. -/
def limit : Program → Nat × String
  | bind | connect | getnameinfo | setsockoptClient | shutdownClient => (2, "Too many arguments.")
  | udpClient => (3, "Too many arguments.")
  | getsockopt | setsockoptServer | shutdownServer | udpServer =>
      (2, "Error: Too many arguments.")

/-- `parse_arguments` -/
def parser (program : Program) : Parser :=
  plain program.required (some program.limit)

/-- What `handle_arguments` says when there is no address. -/
def noAddress : Program → String
  | bind => "The IP address or hostname is required."
  | setsockoptClient => "The port is required."
  | shutdownClient => "The target address is required."
  | udpClient => "The address is required."
  | _ => "The ip address is required."

/-- What `handle_arguments` says when there is no port. -/
def noPort : Program → String
  | bind => "Port argument is missing."
  | setsockoptClient => "The address is required."
  | _ => "The port is required."

/-- Whether a program takes a message behind the port. -/
def takesMessage : Program → Bool
  | udpClient => true
  | _ => false

end Program

/-- What a program goes on with. -/
structure Endpoint where
  address : Text
  port : UInt16
  message : Option Text

/-- How a program ends before it opens a socket. -/
inductive End
  | usage (usage : Usage)
  | perror (message : String)
  | stderr (message : String)
  deriving DecidableEq

/-- How a rejection ends a program. -/
def End.of : Rejection → End
  | .usage message => .usage (.failure (ascii message))
  | .perror message => .perror message
  | .stderr message => .stderr message

/-- `handle_arguments` -/
def handleArguments (program : Program) (arguments : Arguments) : Except Rejection Endpoint := do
  let address ← require arguments.operands[0]? program.noAddress
  let port ← require arguments.operands[1]? program.noPort
  let message ←
    if program.takesMessage then some <$> require arguments.operands[2]? "The message is required."
    else pure none
  let port ← parseInPortT port
  pure { address := address, port := port, message := message }

/-- What `main` makes of the operands: they are counted by `parse_arguments` and handled. -/
def handled (program : Program) (parsed : Except Usage Arguments) : Except End Endpoint :=
  match parsed with
  | .error usage => .error (.usage usage)
  | .ok arguments => (handleArguments program arguments).mapError .of

/-- The beginning of `main`, with fuel for the passes of its loop. -/
def commandLine (fuel : Nat) (order : Order) (program : Program) (argv : List Text) :
    Option (Except End Endpoint) :=
  (parseArguments fuel order program.parser argv).map (handled program)

/-- The beginning of `main` ends with `result`. -/
def Begins (order : Order) (program : Program) (argv : List Text) (result : Except End Endpoint) :
    Prop :=
  ∃ fuel, commandLine fuel order program argv = some result

/-! ## What the programs make of their operands -/

/-- The port that `parse_in_port_t` makes of a string. -/
def ReadAs (str : Text) (port : UInt16) : Prop :=
  str.bytes = [] ∧ port = 0 ∨
    ∃ denoted, Denotes str.bytes denoted ∧ denoted.natAbs < 2 ^ 64 ∧
      (port.toNat : Int) = denoted % 2 ^ 64

/-- The operands name an endpoint. -/
inductive Names (program : Program) : List Text → Endpoint → Prop
  | pair {address portStr : Text} {port : UInt16} (bare : program.takesMessage = false)
      (read : ReadAs portStr port) : Names program [address, portStr] ⟨address, port, none⟩
  | message {address portStr text : Text} {port : UInt16} (takes : program.takesMessage = true)
      (read : ReadAs portStr port) :
      Names program [address, portStr, text] ⟨address, port, some text⟩

/-- What a program says about a number of operands that is wrong. -/
def complaint : Program → (count : Nat) → Option String
  | .bind, 0 => some "The IP address or hostname is required."
  | .bind, 1 => some "Port argument is missing."
  | .getsockopt, 0 | .setsockoptServer, 0 | .shutdownServer, 0 | .udpServer, 0 =>
      some "The ip address and port are required"
  | .getsockopt, 1 | .setsockoptServer, 1 | .shutdownServer, 1 | .udpServer, 1 =>
      some "The port is required"
  | _, 0 | _, 1 => some "Too few arguments."
  | .udpClient, 2 => some "The message is required."
  | _, 2 => none
  | .udpClient, 3 => none
  | .getsockopt, _ | .setsockoptServer, _ | .shutdownServer, _ | .udpServer, _ =>
      some "Error: Too many arguments."
  | _, _ => some "Too many arguments."

/-- Why a program ends before it opens a socket. -/
inductive Ended (order : Order) (program : Program) (args : List Text) : End → Prop
  | option {arg : Text} (first : FirstOption order args arg) :
      Ended order program args (.usage (refused arg))
  | miscounted {operands : List Text} {message : String} (spelled : Spelled order args operands)
      (wrong : complaint program operands.length = some message) :
      Ended order program args (.usage (.failure (ascii message)))
  | port {operands : List Text} {portStr : Text} {rejection : Rejection}
      (spelled : Spelled order args operands) (right : complaint program operands.length = none)
      (second : operands[1]? = some portStr) (refused : parseInPortT portStr = .error rejection) :
      Ended order program args (.of rejection)

/-- What a program promises of its command line. -/
structure Addressed (order : Order) (program : Program) (argv : List Text) : Prop where
  /-- It goes on with the endpoint that the operands name. -/
  goesOn : ∀ endpoint, Begins order program argv (.ok endpoint) ↔
    ∃ operands, Spelled order (argv.drop 1) operands ∧ Names program operands endpoint
  /-- No operand that is missing is used. -/
  ends : ∀ reason, Begins order program argv (.error reason) ↔
    Ended order program (argv.drop 1) reason
  /-- It ends well only when it is asked for help. -/
  helps : ∀ usage, Begins order program argv (.error (.usage usage)) →
    (usage.exitCode = 0 ↔
      ∃ arg, FirstOption order (argv.drop 1) arg ∧ firstLetter arg = letterH)

theorem parseInPortT_eq_ok_iff {str : Text} {port : UInt16} :
    parseInPortT str = .ok port ↔ ReadAs str port := by
  have bound : UInt64.toNat 65535 = 65535 := rfl
  have small := port.toNat_lt
  rw [NetworkingFunctions.parseInPortT_eq_ok_iff, parseUnsigned_returns_iff, bound, ReadAs]
  constructor
  · rintro (⟨empty, zero⟩ | ⟨denoted, denotes, fits, wrapped, _⟩)
    · exact Or.inl ⟨empty, UInt16.toNat_inj.mp zero⟩
    · exact Or.inr ⟨denoted, denotes, fits, wrapped⟩
  · rintro (⟨empty, rfl⟩ | ⟨denoted, denotes, fits, wrapped⟩)
    · exact Or.inl ⟨empty, rfl⟩
    · exact Or.inr ⟨denoted, denotes, fits, wrapped, by omega⟩

/-- What `parse_arguments` leaves of operands that are spelled. -/
def counted (program : Program) (operands : List Text) : Except Usage Arguments :=
  match program.parser.miscounted operands.length with
  | some usage => .error usage
  | none => .ok { settings := .initial, operands := operands }

/-- A wrong number of operands is noticed. -/
theorem handled_of_complaint {program : Program} {operands : List Text} {message : String}
    (wrong : complaint program operands.length = some message) :
    handled program (counted program operands) = .error (.usage (.failure (ascii message))) := by
  rcases operands with _ | ⟨address, _ | ⟨portStr, _ | ⟨text, _ | ⟨more, rest⟩⟩⟩⟩
  all_goals
    cases program <;> cases wrong
    all_goals rfl

/-- The port decides about the right number of operands. -/
theorem handled_pair {program : Program} (bare : program.takesMessage = false)
    (address portStr : Text) :
    complaint program 2 = none ∧
      handled program (counted program [address, portStr]) =
        match parseInPortT portStr with
        | .ok port => .ok ⟨address, port, none⟩
        | .error rejection => .error (.of rejection) := by
  cases program with
  | udpClient => cases bare
  | _ =>
      refine ⟨rfl, ?_⟩
      simp only [handled, counted]
      cases port : parseInPortT portStr with
      | ok port | error rejection =>
          change (parseInPortT portStr >>= _).mapError _ = _
          rw [port]
          rfl

theorem handled_message {program : Program} (takes : program.takesMessage = true)
    (address portStr text : Text) :
    complaint program 3 = none ∧
      handled program (counted program [address, portStr, text]) =
        match parseInPortT portStr with
        | .ok port => .ok ⟨address, port, some text⟩
        | .error rejection => .error (.of rejection) := by
  cases program with
  | udpClient =>
      refine ⟨rfl, ?_⟩
      simp only [handled, counted]
      cases port : parseInPortT portStr with
      | ok port | error rejection =>
          change (parseInPortT portStr >>= _).mapError _ = _
          rw [port]
          rfl
  | _ => cases takes

/-- The right number of operands. -/
theorem exists_of_right {program : Program} {operands : List Text}
    (right : complaint program operands.length = none) :
    (∃ address portStr, operands = [address, portStr] ∧ program.takesMessage = false) ∨
      ∃ address portStr text, operands = [address, portStr, text] ∧
        program.takesMessage = true := by
  rcases operands with _ | ⟨address, _ | ⟨portStr, _ | ⟨text, _ | ⟨more, rest⟩⟩⟩⟩
  · cases program <;> cases right
  · cases program <;> cases right
  · left
    refine ⟨address, portStr, rfl, ?_⟩
    cases program with
    | udpClient => cases right
    | _ => rfl
  · right
    refine ⟨address, portStr, text, rfl, ?_⟩
    cases program with
    | udpClient => rfl
    | _ => cases right
  · cases program <;> cases right

section Main

variable {order : Order} {program : Program} {argv : List Text} {operands : List Text}

theorem begins_of_spelled (spelled : Spelled order (argv.drop 1) operands) :
    Begins order program argv (handled program (counted program operands)) := by
  rcases @parsesTo_of_spelled order program.required (some program.limit) _ argv spelled with
    ⟨fuel, run⟩
  refine ⟨fuel, ?_⟩
  change Option.map (handled program) (parseArguments fuel order (plain _ _) argv) = _
  rw [run]
  rfl

theorem begins_of_firstOption {arg : Text} (first : FirstOption order (argv.drop 1) arg) :
    Begins order program argv (.error (.usage (refused arg))) := by
  rcases @parsesTo_of_firstOption order program.required (some program.limit) _ argv first with
    ⟨fuel, run⟩
  refine ⟨fuel, ?_⟩
  change Option.map (handled program) (parseArguments fuel order (plain _ _) argv) = _
  rw [run]
  rfl

theorem Begins.unique {result other : Except End Endpoint}
    (begins : Begins order program argv result) (again : Begins order program argv other) :
    result = other := by
  rcases begins with ⟨fuel, run⟩
  rcases again with ⟨more, rerun⟩
  rcases Option.map_eq_some_iff.mp run with ⟨left, parses, rfl⟩
  rcases Option.map_eq_some_iff.mp rerun with ⟨right, parsesAgain, rfl⟩
  rw [ParsesTo.unique ⟨fuel, parses⟩ ⟨more, parsesAgain⟩]

/-- Operands that name an endpoint are handed on. -/
theorem handled_of_names {endpoint : Endpoint} (names : Names program operands endpoint) :
    handled program (counted program operands) = .ok endpoint := by
  cases names with
  | @pair address portStr port bare read =>
      rw [(handled_pair bare address portStr).2, parseInPortT_eq_ok_iff.mpr read]
  | @message address portStr text port takes read =>
      rw [(handled_message takes address portStr text).2, parseInPortT_eq_ok_iff.mpr read]

theorem handled_of_refused {portStr : Text} {rejection : Rejection}
    (right : complaint program operands.length = none) (second : operands[1]? = some portStr)
    (refused : parseInPortT portStr = .error rejection) :
    handled program (counted program operands) = .error (.of rejection) := by
  rcases exists_of_right right with ⟨address, str, rfl, bare⟩ | ⟨address, str, text, rfl, takes⟩
  · have same : str = portStr := Option.some.inj second
    rw [(handled_pair bare address str).2, same, refused]
  · have same : str = portStr := Option.some.inj second
    rw [(handled_message takes address str text).2, same, refused]

/-- Operands name an endpoint, or the program ends. -/
theorem names_or_ended (spelled : Spelled order (argv.drop 1) operands) :
    (∃ endpoint, Names program operands endpoint) ∨
      ∃ reason, Ended order program (argv.drop 1) reason ∧
        handled program (counted program operands) = .error reason := by
  cases wrong : complaint program operands.length with
  | some message => exact Or.inr ⟨_, .miscounted spelled wrong, handled_of_complaint wrong⟩
  | none =>
      rcases exists_of_right wrong with ⟨address, str, rfl, bare⟩ | ⟨address, str, text, rfl, takes⟩
      · cases port : parseInPortT str with
        | ok port => exact Or.inl ⟨_, .pair bare (parseInPortT_eq_ok_iff.mp port)⟩
        | error rejection =>
            exact Or.inr ⟨_, .port spelled wrong rfl port, handled_of_refused wrong rfl port⟩
      · cases port : parseInPortT str with
        | ok port => exact Or.inl ⟨_, .message takes (parseInPortT_eq_ok_iff.mp port)⟩
        | error rejection =>
            exact Or.inr ⟨_, .port spelled wrong rfl port, handled_of_refused wrong rfl port⟩

theorem begins_of_ended {reason : End} (ended : Ended order program (argv.drop 1) reason) :
    Begins order program argv (.error reason) := by
  cases ended with
  | option first => exact begins_of_firstOption first
  | miscounted spelled wrong =>
      rw [← handled_of_complaint wrong]
      exact begins_of_spelled spelled
  | port spelled right second refused =>
      rw [← handled_of_refused right second refused]
      exact begins_of_spelled spelled

/-- Only an option can end the program with the exit code 0. -/
theorem Ended.helps {usage : Usage} (ended : Ended order program (argv.drop 1) (.usage usage))
    (success : usage.exitCode = 0) :
    ∃ arg, FirstOption order (argv.drop 1) arg ∧ firstLetter arg = letterH := by
  generalize reasonEq : End.usage usage = reason at ended
  cases ended with
  | @option arg first =>
      cases reasonEq
      refine ⟨arg, first, ?_⟩
      by_contra other
      rw [refused, if_neg other] at success
      cases success
  | miscounted spelled wrong =>
      cases reasonEq
      cases success
  | @port _ _ rejection spelled right second refused =>
      cases rejection <;> cases reasonEq
      cases success

/-- The beginning of `main` goes on or ends. -/
theorem begins_cases (order : Order) (program : Program) (argv : List Text) :
    (∃ operands endpoint, Spelled order (argv.drop 1) operands ∧
        Names program operands endpoint ∧ Begins order program argv (.ok endpoint)) ∨
      ∃ reason, Ended order program (argv.drop 1) reason ∧
        Begins order program argv (.error reason) := by
  rcases exists_spelled_or_firstOption order (argv.drop 1) with ⟨operands, spelled⟩ | ⟨arg, first⟩
  · have begins := @begins_of_spelled order program argv operands spelled
    rcases @names_or_ended order program argv operands spelled with
      ⟨endpoint, names⟩ | ⟨reason, ended, result⟩
    · rw [handled_of_names names] at begins
      exact Or.inl ⟨operands, endpoint, spelled, names, begins⟩
    · rw [result] at begins
      exact Or.inr ⟨reason, ended, begins⟩
  · exact Or.inr ⟨_, .option first, begins_of_firstOption first⟩

theorem begins_ok_iff {endpoint : Endpoint} :
    Begins order program argv (.ok endpoint) ↔
      ∃ operands, Spelled order (argv.drop 1) operands ∧ Names program operands endpoint := by
  constructor
  · intro begins
    rcases begins_cases order program argv with
      ⟨operands, other, spelled, names, again⟩ | ⟨reason, _, again⟩
    · cases begins.unique again
      exact ⟨operands, spelled, names⟩
    · cases begins.unique again
  · rintro ⟨operands, spelled, names⟩
    rw [← handled_of_names names]
    exact begins_of_spelled spelled

theorem begins_error_iff {reason : End} :
    Begins order program argv (.error reason) ↔ Ended order program (argv.drop 1) reason := by
  refine ⟨fun begins => ?_, begins_of_ended⟩
  rcases begins_cases order program argv with ⟨_, endpoint, _, _, again⟩ | ⟨other, ended, again⟩
  · cases begins.unique again
  · cases begins.unique again
    exact ended

end Main

/-- Each of the programs, of every command line. -/
theorem commandLine_addressed (order : Order) (program : Program) (argv : List Text) :
    Addressed order program argv where
  goesOn _ := begins_ok_iff
  ends _ := begins_error_iff
  helps usage begins := by
    constructor
    · exact (begins_error_iff.mp begins).helps
    · rintro ⟨arg, first, help⟩
      have refusal := begins.unique (begins_of_firstOption first)
      rw [refused, if_pos help] at refusal
      cases refusal
      rfl

end CExamples.AddressPrograms
