import CExamples.Transition.Core

/-!
# Servers that serve one client after the other

The loops of `main` in `domain-socket/read-write/server.c`,
`domain-socket/send-recv/server.c`, `tcp/shutdown/server.c` and
`sockets/setsockopt/server.c`, from the point where the server listens and SIGINT has its
handler.  The handler sets `exit_flag` and interrupts the call in which the server waits;
when it runs between the look at the flag and the call, the server waits all the same.

Each call succeeds or fails as the environment chooses.  A client is what it will have
sent; what the domain-socket servers print of it is the subject of `handleConnection`,
and here only how much they read of it counts.
-/

namespace CExamples.Servers

open CExamples.Transition

inductive Program
  /-- the two domain-socket servers, which read from their clients -/
  | domainSocket
  /-- `tcp/shutdown/server.c`, which shuts down each socket before it closes it -/
  | shutdown
  /-- `sockets/setsockopt/server.c`, which ends when `accept` fails -/
  | setsockopt
  deriving DecidableEq, Repr

/-- Where the server is. -/
inductive Control
  /-- at `while(!exit_flag)` -/
  | head
  /-- in `accept` -/
  | accept
  /-- behind an `accept` that failed, at `if(exit_flag)` -/
  | recheck
  /-- in the `read` of a length, with the bytes to come -/
  | readSize (stream : List UInt8)
  /-- in the `read` of a word -/
  | readWord (size : UInt8) (stream : List UInt8)
  /-- in `shutdown_socket(client_sockfd, SHUT_RD)` -/
  | shutdownClient
  /-- in `socket_close(client_sockfd)` -/
  | closeClient
  /-- in `shutdown_socket(sockfd, SHUT_RDWR)` -/
  | shutdownListener
  /-- in `socket_close(sockfd)` -/
  | closeListener
  /-- in `unlink(SOCKET_PATH)` -/
  | unlink
  | exited (success : Bool)
  deriving DecidableEq, Repr

/-- The server with its listening socket, the name of the socket, and how many clients
it has accepted and closed. -/
structure State where
  control : Control
  exitFlag : Bool
  listening : Bool
  linked : Bool
  accepted : Nat
  closed : Nat
  deriving DecidableEq, Repr

/-- The server listens; a domain socket has a name. -/
def initial (program : Program) : State where
  control := .head
  exitFlag := false
  listening := true
  linked := decide (program = .domainSocket)
  accepted := 0
  closed := 0

inductive Action
  /-- The server goes on, and its call succeeds; a read gets at most `count` bytes, but
  at least one if there are any. -/
  | go (count : Nat)
  /-- `accept` returns a client that sends `stream`. -/
  | connect (stream : List UInt8)
  /-- SIGINT arrives during the call, which returns -1. -/
  | interrupted
  /-- The call returns -1 for another reason. -/
  | failed
  /-- SIGINT arrives while no call waits. -/
  | sigint
  deriving DecidableEq, Repr

/-- Where a client that was accepted is served. -/
def Program.serving : Program → List UInt8 → Control
  | .domainSocket, stream => .readSize stream
  | .shutdown, _ => .shutdownClient
  | .setsockopt, _ => .closeClient

/-- Where the loop is left to. -/
def Program.leaving : Program → Control
  | .shutdown => .shutdownListener
  | _ => .closeListener

/-- Behind `socket_close(sockfd)`. -/
def Program.ending : Program → Control
  | .domainSocket => .unlink
  | _ => .exited true

/-- The server goes on. -/
def go (program : Program) (count : Nat) (state : State) : Option State :=
  match state.control with
  | .head =>
      if state.exitFlag then some { state with control := program.leaving }
      else some { state with control := .accept }
  | .accept => none
  | .recheck =>
      if state.exitFlag then some { state with control := program.leaving }
      else some { state with control := .head }
  | .readSize [] => some { state with control := .closeClient }
  | .readSize (size :: stream) => some { state with control := .readWord size stream }
  | .readWord size stream =>
      some { state with control := .readSize (stream.drop (min (max 1 count) size.toNat)) }
  | .shutdownClient => some { state with control := .closeClient }
  | .closeClient => some { state with control := .head, closed := state.closed + 1 }
  | .shutdownListener => some { state with control := .closeListener }
  | .closeListener => some { state with control := program.ending, listening := false }
  | .unlink => some { state with control := .exited true, linked := false }
  | .exited _ => none

/-- `accept` returns a client. -/
def connect (program : Program) (stream : List UInt8) (state : State) : Option State :=
  match state.control with
  | .accept =>
      some { state with control := program.serving stream, accepted := state.accepted + 1 }
  | _ => none

/-- A call in which the server waits returns -1. -/
def waitFails (program : Program) (state : State) : Option State :=
  match state.control with
  | .accept =>
      match program with
      | .setsockopt => some { state with control := .exited false, listening := false }
      | _ => some { state with control := .recheck }
  | .readSize _ => some { state with control := .closeClient }
  | .readWord _ stream => some { state with control := .readSize stream }
  | _ => none

/-- Another call returns -1; the result of `unlink` is not looked at. -/
def otherFails (state : State) : Option State :=
  match state.control with
  | .shutdownClient | .closeClient | .shutdownListener | .closeListener =>
      some { state with control := .exited false }
  | .unlink => some { state with control := .exited true }
  | _ => none

/-- The handler runs. -/
def handler (state : State) : State :=
  { state with exitFlag := true }

/-- A step of the server. -/
def step (program : Program) : Step State Action := fun state action =>
  match action with
  | .go count => go program count state
  | .connect stream => connect program stream state
  | .interrupted => waitFails program (handler state)
  | .failed => (waitFails program state).or (otherFails state)
  | .sigint =>
      match state.control with
      | .exited _ => none
      | _ => if state.exitFlag then none else some (handler state)

/-- No call fails, nor does SIGINT interrupt one whose failure would end the server. -/
def Action.calm (program : Program) : Action → Bool
  | .failed => false
  | .interrupted => program != .setsockopt
  | _ => true

end CExamples.Servers
