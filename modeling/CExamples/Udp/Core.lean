import CExamples.AddressPrograms
import CExamples.SocketAddress
import CExamples.Transition.Core

/-!
# One server and its clients over UDP

`udp/sendto-recvfrom/server.c` waits for one packet and prints it; each
`udp/sendto-recvfrom/client.c` sends its message with the terminator.  The network may
lose a datagram, deliver it twice or in another order, and other programs may send to the
server; what arrives before the server is bound is lost.

Each call succeeds or fails as the environment chooses, but a datagram is sent whole.
-/

namespace CExamples.Udp

open CExamples.AddressPrograms
open CExamples.CommandLine
open CExamples.Program
open CExamples.SocketAddress
open CExamples.Transition
open CExamples.Word

/-- A program on its host, and what it makes of its command line. -/
structure Party (program : AddressPrograms.Program) where
  host : Host
  inet : Inet
  order : Order
  argv : List Text
  command : Except End Endpoint
  begins : Begins order program argv command

/-- `sizeof(buffer)`, which is `LINE_LEN + 1` -/
def bufferSize : Nat :=
  1025

/-- The server, with what its buffer holds at first. -/
structure Server extends Party .udpServer where
  buffer : List UInt8
  length_buffer : buffer.length = bufferSize

/-- The server, its clients, and whether the kernel hands a datagram to a bound socket. -/
structure Setup (n : Nat) where
  server : Server
  client : Fin n → Party .udpClient
  reaches : (destination bound : Name) → Bool

/-- A datagram, with the client that sent it or `none` for another program. -/
structure Datagram (n : Nat) where
  sender : Option (Fin n)
  destination : Name
  payload : List UInt8

/-- How a program ends. -/
inductive Finish
  | command (reason : End)
  | address (failure : Failure)
  /-- a call failed -/
  | call
  | done
  deriving DecidableEq

/-- A line that the server prints. -/
inductive ServerLine
  | binding (shown : List UInt8) (port : UInt16)
  | bound (shown : List UInt8) (port : UInt16)
  /-- the line of `handle_packet` -/
  | packet (sockfd bytes : Nat) (text : List UInt8)
  deriving DecidableEq

/-- Where the server is. -/
inductive ServerControl
  | starts
  /-- in `socket_create` -/
  | creates (endpoint : Endpoint) (storage : Storage)
  /-- in `bind` -/
  | binds (sockfd : Nat) (handed : Handed) (port : UInt16)
  /-- in `recvfrom` -/
  | receives (sockfd : Nat)
  /-- in `socket_close`, behind a `recvfrom` that failed or not -/
  | closes (received : Bool)
  | ended (finish : Finish)

/-- The line that a client prints: what `sendto` has returned, and the message. -/
structure ClientLine where
  bytes : Nat
  text : List UInt8
  deriving DecidableEq

/-- Where a client is. -/
inductive ClientControl
  | starts
  /-- in `socket_create` -/
  | creates (port : UInt16) (message : Text) (storage : Storage) (length : Nat)
  /-- in `sendto` -/
  | sends (message : Text) (bytes : List UInt8)
  /-- in `socket_close` -/
  | closes
  | ended (finish : Finish)

/-- The programs, the socket of the server with the datagrams that have arrived, and the
datagrams on their way. -/
structure State (n : Nat) where
  server : ServerControl
  printed : List ServerLine
  bound : Option Name
  queue : List (Datagram n)
  /-- what `recvfrom` has taken -/
  received : Option (Datagram n)
  client : Fin n → ClientControl
  reported : Fin n → List ClientLine
  network : List (Datagram n)

def initial (n : Nat) : State n where
  server := .starts
  printed := []
  bound := none
  queue := []
  received := none
  client := fun _ => .starts
  reported := fun _ => []
  network := []

inductive Action (n : Nat)
  /-- The server goes on, and its call succeeds; `socket` returns `sockfd`. -/
  | server (sockfd : Nat)
  /-- A call of the server fails. -/
  | serverFails
  /-- A client goes on, and its call succeeds. -/
  | client (i : Fin n)
  /-- A call of a client fails. -/
  | clientFails (i : Fin n)
  /-- A datagram arrives at the socket of the server. -/
  | deliver (index : Nat)
  | lose (index : Nat)
  | duplicate (index : Nat)
  /-- Another program sends a datagram. -/
  | other (destination : Name) (payload : List UInt8)

variable {n : Nat}

/-! ## The server -/

/-- What `recvfrom` stores in the buffer, and what it returns. -/
def recvfrom (buffer payload : List UInt8) : List UInt8 × Nat :=
  (overwrite buffer 0 (payload.take (buffer.length - 1)),
    min payload.length (buffer.length - 1))

/-- The index of the terminator, clamped into the buffer. -/
def terminatorIndex (cap received : Nat) : Nat :=
  if received ≥ cap then cap - 1 else received

/-- What `main` and `handle_packet` make of a datagram. -/
def handlePacket (sockfd : Nat) (buffer payload : List UInt8) : ServerLine :=
  let (buffer, received) := recvfrom buffer payload
  let buffer := buffer.set (terminatorIndex buffer.length received) 0
  .packet sockfd received (cString buffer)

/-- The server goes on. -/
def serverGoes (server : Server) (sockfd : Nat) (state : State n) : Option (State n) :=
  match state.server with
  | .starts =>
      match server.command with
      | .error reason => some { state with server := .ended (.command reason) }
      | .ok endpoint =>
          match convertAddress server.inet server.host endpoint.address with
          | .error failure => some { state with server := .ended (.address failure) }
          | .ok storage => some { state with server := .creates endpoint storage }
  | .creates endpoint storage =>
      match socketBind server.inet server.host storage endpoint.port with
      | .error failure => some { state with server := .ended (.address failure) }
      | .ok handed =>
          some
            { state with
              server := .binds sockfd handed endpoint.port
              printed := state.printed ++ [.binding handed.shown endpoint.port] }
  | .binds sockfd handed port =>
      -- the kernel binds an address that it can read
      (read server.host handed.bytes).map fun name =>
        { state with
          server := .receives sockfd
          printed := state.printed ++ [.bound handed.shown port]
          bound := some name }
  | .receives sockfd =>
      match state.queue with
      | [] => none
      | datagram :: queue =>
          some
            { state with
              server := .closes true
              printed := state.printed ++ [handlePacket sockfd server.buffer datagram.payload]
              queue := queue
              received := some datagram }
  | .closes received =>
      some
        { state with server := .ended (if received then .done else .call), bound := none }
  | .ended _ => none

/-- A call of the server fails. -/
def serverFails (state : State n) : Option (State n) :=
  match state.server with
  | .creates .. | .binds .. => some { state with server := .ended .call }
  | .receives _ => some { state with server := .closes false }
  | .closes _ => some { state with server := .ended .call, bound := none }
  | .starts | .ended _ => none

/-! ## The clients -/

/-- A client goes on. -/
def clientGoes (client : Party .udpClient) (i : Fin n) (state : State n) : Option (State n) :=
  let moves (control : ClientControl) : State n :=
    { state with client := Function.update state.client i control }
  match state.client i with
  | .starts =>
      match client.command with
      | .error reason => some (moves (.ended (.command reason)))
      | .ok endpoint =>
          -- `handle_arguments` has looked for the message
          endpoint.message.map fun message =>
            match convertAddressLength client.inet client.host endpoint.address with
            | .error failure => moves (.ended (.address failure))
            | .ok (storage, length) => moves (.creates endpoint.port message storage length)
  | .creates port message storage length =>
      some (moves
        (.sends message ((getAddressToServer client.host storage port).bytes.take length)))
  | .sends message bytes =>
      -- the kernel sends to an address that it can read
      (read client.host bytes).map fun name =>
        { moves .closes with
          network := state.network ++
            [{ sender := some i, destination := name, payload := message.bytes ++ [0] }]
          reported := Function.update state.reported i
            (state.reported i ++
              [{ bytes := (message.bytes ++ [0]).length, text := message.bytes }]) }
  | .closes => some (moves (.ended .done))
  | .ended _ => none

/-- A call of a client fails. -/
def clientFails (i : Fin n) (state : State n) : Option (State n) :=
  match state.client i with
  | .creates .. | .sends .. | .closes =>
      some { state with client := Function.update state.client i (.ended .call) }
  | .starts | .ended _ => none

/-! ## The network -/

/-- A datagram arrives at the socket that is bound. -/
def deliver (reaches : Name → Name → Bool) (index : Nat) (state : State n) : Option (State n) :=
  match state.network[index]?, state.bound with
  | some datagram, some name =>
      if reaches datagram.destination name then
        some
          { state with
            network := state.network.eraseIdx index
            queue := state.queue ++ [datagram] }
      else none
  | _, _ => none

/-- A datagram is lost. -/
def lose (index : Nat) (state : State n) : Option (State n) :=
  state.network[index]?.map fun _ =>
    { state with network := state.network.eraseIdx index }

/-- A datagram is on its way twice. -/
def duplicate (index : Nat) (state : State n) : Option (State n) :=
  state.network[index]?.map fun datagram =>
    { state with network := state.network ++ [datagram] }

/-- Another program sends a datagram. -/
def otherSends (destination : Name) (payload : List UInt8) (state : State n) : State n :=
  { state with
    network := state.network ++
      [{ sender := none, destination := destination, payload := payload }] }

def step (setup : Setup n) : Step (State n) (Action n) := fun state action =>
  match action with
  | .server sockfd => serverGoes setup.server sockfd state
  | .serverFails => serverFails state
  | .client i => clientGoes (setup.client i) i state
  | .clientFails i => clientFails i state
  | .deliver index => deliver setup.reaches index state
  | .lose index => lose index state
  | .duplicate index => duplicate index state
  | .other destination payload => some (otherSends destination payload state)

end CExamples.Udp
