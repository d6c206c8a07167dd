import CExamples.Program.Array
import CExamples.Word.CString
import Mathlib.Logic.Function.Basic

/-!
# A server that sends a message

`networking-functions/listen-accept/main.c`, from the point where it listens.  The
server accepts one client after the other, writes the message to it, one byte in
each call, and closes it.  SIGINT sets `exit_flag`, and the server leaves its loop
when it reads the flag the next time.

What the kernel and the clients decide is data of the `World`: the answers to
`accept`, those to the writes to each client, and the moments at which SIGINT
arrives.  A call whose answers are used up has not returned yet.  The trace records,
newest first, what the process did with the descriptors of its clients.
-/

namespace CExamples.NetworkingFunctions.ListenAccept

open CExamples.Program
open CExamples.Word

/-- One answer to a `write` of one byte to a client: the byte was taken, `-1` with
`EINTR` (after the SIGINT handler ran when `sigint` is set), or `-1` because the
client has closed or reset its connection. -/
inductive WriteReply
  | written
  | interrupted (sigint : Bool)
  | failed
  deriving DecidableEq, Repr

/-- One answer to `accept`: a client with the answers to the writes to it, or `-1`. -/
inductive AcceptReply
  | returned (fd : Int) (replies : List WriteReply)
  | interrupted (sigint : Bool)
  | failed
  deriving DecidableEq, Repr

/-- The calls that can wait. -/
inductive Call
  | accept
  | write (fd : Int)
  deriving DecidableEq, Repr

/-- What the trace records. -/
inductive Event
  | accepted (fd : Int)
  | sent (fd : Int) (byte : UInt8)
  | closed (fd : Int)
  deriving DecidableEq, Repr

/-- The environment of the server and what it did so far.  `refused` lists the
clients to which a `write` returned `-1`. -/
structure World where
  exitFlag : Bool
  signals : List Bool
  incoming : List AcceptReply
  connection : Int → List WriteReply
  listening : Option Int
  refused : List Int
  trace : List Event

abbrev Server (α : Type) := Prog Call World α

/-- The descriptors that `accept` returned and that were not closed since. -/
def openDescriptors : List Event → List Int
  | [] => []
  | .accepted fd :: trace => fd :: openDescriptors trace
  | .sent _ _ :: trace => openDescriptors trace
  | .closed fd :: trace => (openDescriptors trace).erase fd

namespace World

/-- The descriptors of the connected clients. -/
def opened (world : World) : List Int :=
  openDescriptors world.trace

/-- The SIGINT handler ran, if `sigint` is set. -/
def interrupt (world : World) (sigint : Bool) : World :=
  { world with exitFlag := world.exitFlag || sigint }

/-- `accept` may only return a descriptor that is not open. -/
def Acceptable (world : World) (fd : Int) : Prop :=
  0 ≤ fd ∧ world.listening ≠ some fd ∧ fd ∉ world.opened

instance (world : World) (fd : Int) : Decidable (world.Acceptable fd) :=
  inferInstanceAs (Decidable (_ ∧ _ ∧ _))

/-- The world after a connection was accepted. -/
def established (world : World) (fd : Int) (replies : List WriteReply) : World :=
  { world with
    connection := Function.update world.connection fd replies
    trace := .accepted fd :: world.trace }

/-- The world after the answers of a client were used up to `replies`. -/
def consume (world : World) (fd : Int) (replies : List WriteReply) : World :=
  { world with connection := Function.update world.connection fd replies }

end World

/-- `exit(EXIT_FAILURE)` after `perror`. -/
def exit {α : Type} (message : String) : Server α :=
  throw (.exit 1 message)

/-- SIGINT may have arrived since the last call. -/
def deliver : Server Unit := do
  let world ← get
  match world.signals with
  | [] => pure ()
  | sigint :: signals => set { world.interrupt sigint with signals := signals }

/-- The volatile read of `exit_flag`. -/
def readExitFlag : Server Bool := do
  deliver
  let world ← get
  pure world.exitFlag

/-- `sleep(1)`, which SIGINT may cut short. -/
def sleep : Server Unit :=
  deliver

/-- `accept(server_fd, ...)`. -/
def accept : Server Int := do
  let world ← get
  match world.incoming with
  | [] => throw (.blocked .accept)
  | .returned fd replies :: incoming =>
      if world.Acceptable fd then do
        set { world.established fd replies with incoming := incoming }
        pure fd
      else
        throw (.blocked .accept)
  | .interrupted sigint :: incoming => do
      set { world.interrupt sigint with incoming := incoming }
      pure (-1)
  | .failed :: incoming => do
      set { world with incoming := incoming }
      pure (-1)

/-- `write(fd, &byte, 1)`: how many bytes were taken, or `-1`. -/
def write (fd : Int) (byte : UInt8) : Server Int := do
  let world ← get
  if fd ∈ world.opened then
    match world.connection fd with
    | [] => throw (.blocked (.write fd))
    | .written :: replies => do
        set { world.consume fd replies with trace := .sent fd byte :: world.trace }
        pure 1
    | .interrupted sigint :: replies => do
        set { (world.consume fd replies).interrupt sigint with refused := fd :: world.refused }
        pure (-1)
    | .failed :: replies => do
        set { world.consume fd replies with refused := fd :: world.refused }
        pure (-1)
  else
    pure (-1)

/-- `close(fd)`: whether the descriptor was open. -/
def close (fd : Int) : Server Bool := do
  let world ← get
  if world.listening = some fd then do
    set { world with listening := none }
    pure true
  else if fd ∈ world.opened then do
    set { world with trace := .closed fd :: world.trace }
    pure true
  else
    pure false

/-- `socket_close` -/
def socketClose (fd : Int) : Server Unit := do
  if ← close fd then pure () else exit "Error closing socket"

/-- `socket_accept_connection` -/
def socketAcceptConnection : Server Int :=
  accept

/-- The body of the loop of `handle_connection`. -/
def sendByte (fd : Int) (message : List UInt8) (i : Nat) : Server Unit := do
  let byte ← load message i
  let written ← write fd byte
  if written = -1 then exit "write" else sleep

/-- `handle_connection` -/
def handleConnection (fd : Int) (message : List UInt8) : Server Unit :=
  forRange (fun i _ => sendByte fd message i) (cString message).length 0 ()

/-- One round of the `while(!exit_flag)` loop of `main`. -/
def mainRound (message : List UInt8) : Unit → Server (Unit ⊕ Unit)
  | () => do
      if ← readExitFlag then
        pure (.inr ())
      else do
        let client ← socketAcceptConnection
        if client = -1 then
          if ← readExitFlag then pure (.inr ()) else pure (.inl ())
        else do
          handleConnection client message
          socketClose client
          pure (.inl ())

/-- `main` after `start_listening`, observed for at most `rounds` rounds of its
loop. -/
def main (message : List UInt8) (sockfd : Int) (rounds : Nat) : Server Int := do
  loop (mainRound message) rounds ()
  socketClose sockfd
  pure 0

/-- What the kernel and the clients will answer. -/
structure Environment where
  signals : List Bool
  incoming : List AcceptReply

/-- The world in which the server listens on `sockfd`. -/
def Environment.boot (environment : Environment) (sockfd : Int) : World where
  exitFlag := false
  signals := environment.signals
  incoming := environment.incoming
  connection := fun _ => []
  listening := some sockfd
  refused := []
  trace := []

end CExamples.NetworkingFunctions.ListenAccept
