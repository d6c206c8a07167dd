import CExamples.IoMultiplexing.ReadWord
import CExamples.Program.SizeT

/-!
# The poll server

`io-multiplexing/poll/main.c`.  The server keeps two parallel arrays with an
offset of one: `fds[0]` is the listening socket and `fds[i + 1]` belongs to
`client_sockets[i]`.  `nfds_t` is 64 bits wide, and array accesses are checked.
-/

namespace CExamples.IoMultiplexing.Poll

open CExamples.Program

/-- `struct pollfd` -/
structure PollFd where
  fd : Int
  events : UInt16
  revents : UInt16
  deriving DecidableEq, Repr

/-- `POLLIN` -/
def pollin : UInt16 :=
  1

/-- A slot of `fds` that no client uses. -/
def PollFd.unused : PollFd :=
  ⟨-1, 0, 0⟩

/-- What the allocator leaves in a slot of `fds`. -/
def PollFd.junk (junk : Nat → Int) (index : Nat) : PollFd :=
  ⟨junk (3 * index), .ofInt (junk (3 * index + 1)), .ofInt (junk (3 * index + 2))⟩

/-- Whether `POLLIN` is set in `revents`. -/
def PollFd.Readable (entry : PollFd) : Prop :=
  entry.revents &&& pollin ≠ 0

instance (entry : PollFd) : Decidable entry.Readable :=
  inferInstanceAs (Decidable (_ ≠ _))

/-- The client arrays of `main`. -/
structure Server where
  clientSockets : List Int
  clientCount : UInt64
  clientCapacity : UInt64
  fds : List PollFd
  deriving DecidableEq, Repr

/-- The programs of the poll server; an answer of `poll` lists `revents`. -/
abbrev PollSys (α : Type) := Sys (List UInt16) α

/-- `initialize_pollfds` -/
def initializePollfds (sockfd : Int) : PollSys Server := do
  let clientCapacity : UInt64 := 4
  if ← allocate then
    let world ← get
    let clientSockets := resize [] (slotsOf clientCapacity 4) world.junk
    let clientSockets ←
      forRange (fun i slots => store slots i (-1)) clientCapacity.toNat 0 clientSockets
    if ← allocate then
      let fds := resize [] (slotsOf (clientCapacity + 1) 8) (PollFd.junk world.junk)
      let fds ← store fds 0 ⟨sockfd, pollin, 0⟩
      let fds ← forRange (fun i slots => store slots i .unused) clientCapacity.toNat 1 fds
      pure ⟨clientSockets, 0, clientCapacity, fds⟩
    else
      exit "malloc"
  else
    exit "malloc"

/-- The growth of both arrays in `handle_new_connection`. -/
def growArrays (server : Server) : PollSys Server := do
  let newCap := if server.clientCapacity = 0 then 4 else server.clientCapacity * 2
  if ← allocate then
    let world ← get
    let clientSockets := resize server.clientSockets (slotsOf newCap 4) world.junk
    if ← allocate then
      let fds := resize server.fds (slotsOf (newCap + 1) 8) (PollFd.junk world.junk)
      let (clientSockets, fds) ←
        forRange (fun i (clientSockets, fds) => do
            let clientSockets ← store clientSockets i (-1)
            let fds ← store fds (i + 1) .unused
            pure (clientSockets, fds))
          (newCap.toNat - server.clientCapacity.toNat) server.clientCapacity.toNat
          (clientSockets, fds)
      pure { server with clientSockets, fds, clientCapacity := newCap }
    else
      exit "realloc"
  else
    exit "realloc"

/-- `handle_new_connection` -/
def handleNewConnection (server : Server) : PollSys Server := do
  let listener ← load server.fds 0
  if listener.Readable then
    match ← accept with
    | .returned newSocket => do
        let server ←
          if server.clientCount = server.clientCapacity then growArrays server else pure server
        let clientSockets ← store server.clientSockets server.clientCount.toNat newSocket
        let fds ← store server.fds (server.clientCount + 1).toNat ⟨newSocket, pollin, 0⟩
        pure { server with clientSockets, fds, clientCount := server.clientCount + 1 }
    | _ => exit "Accept error"
  else
    pure server

/-- `handle_client_disconnection`: the last client moves into the removed
slot. -/
def moveLast (server : Server) (clientIndex last : UInt64) : PollSys Server := do
  let lastSocket ← load server.clientSockets last.toNat
  let clientSockets ← store server.clientSockets clientIndex.toNat lastSocket
  let lastFd ← load server.fds (last + 1).toNat
  let fds ← store server.fds (clientIndex + 1).toNat lastFd
  pure { server with clientSockets, fds }

/-- `handle_client_disconnection`: the last slot is cleared. -/
def clearLast (server : Server) (last : UInt64) : PollSys Server := do
  let clientSockets ← store server.clientSockets last.toNat (-1)
  let fds ← store server.fds (last + 1).toNat .unused
  pure { server with clientSockets, fds, clientCount := server.clientCount - 1 }

/-- `handle_client_disconnection` -/
def handleClientDisconnection (server : Server) (clientIndex : UInt64) : PollSys Server := do
  let disconnectedSocket ← load server.clientSockets clientIndex.toNat
  let _ ← close disconnectedSocket
  let last := server.clientCount - 1
  if clientIndex ≠ last then do
    let server ← moveLast server clientIndex last
    clearLast server last
  else
    clearLast server last

/-- One round of the loop of `handle_client_data`. -/
def clientDataRound : UInt64 × Server → PollSys ((UInt64 × Server) ⊕ Server)
  | (i, server) =>
      if i < server.clientCount then do
        let fd ← load server.clientSockets i.toNat
        if fd ≠ -1 then do
          let entry ← load server.fds (i + 1).toNat
          if entry.Readable then do
            if ← readWord fd then do
              let entry ← load server.fds (i + 1).toNat
              let fds ← store server.fds (i + 1).toNat { entry with revents := 0 }
              pure (.inl (i + 1, { server with fds }))
            else do
              let server ← handleClientDisconnection server i
              pure (.inl (i + 1, server))
          else
            pure (.inl (i + 1, server))
        else
          pure (.inl (i + 1, server))
      else
        pure (.inr server)

/-- `handle_client_data`; the index rises in every round, so there is at most
one round for each client. -/
def handleClientData (server : Server) : PollSys Server :=
  loop clientDataRound (server.clientCount.toNat + 1) (0, server)

/-- `poll` writes `revents` of the first `count` entries and ignores entries
with a negative descriptor. -/
def report : Nat → List PollFd → List UInt16 → List PollFd
  | 0, fds, _ => fds
  | _ + 1, [], _ => []
  | count + 1, entry :: fds, revents =>
      { entry with revents := if entry.fd < 0 then 0 else revents.headD 0 } ::
        report count fds revents.tail

/-- `poll(fds, nfds, -1)` -/
def poll (fds : List PollFd) (nfds : Nat) : PollSys (Reply (List PollFd)) := do
  match ← multiplex .poll with
  | .returned revents =>
      if nfds ≤ fds.length then pure (.returned (report nfds fds revents)) else throw .fault
  | .interrupted sigint => pure (.interrupted sigint)
  | .failed => pure .failed

/-- The body of the `while(!exit_flag)` loop of `main`. -/
def mainBody (server : Server) : PollSys Server := do
  match ← poll server.fds (server.clientCount + 1).toNat with
  | .returned fds => do
      let server ← handleNewConnection { server with fds }
      let server ← if server.clientCount > 0 then handleClientData server else pure server
      let listener ← load server.fds 0
      let fds ← store server.fds 0 { listener with revents := 0 }
      pure { server with fds }
  | _ => exit "Poll error"

/-- One round of the `while(!exit_flag)` loop of `main`. -/
def mainRound (server : Server) : PollSys (Server ⊕ Server) := do
  if ← readExitFlag then
    pure (.inr server)
  else do
    let server ← mainBody server
    pure (.inl server)

/-- `main` up to its loop. -/
def start : PollSys (Int × Server) := do
  unlink
  let sockfd ← socket
  if sockfd = -1 then exit "socket"
  else if !(← bind) then exit "bind"
  else if !(← listen) then exit "Listen error"
  else do
    let server ← initializePollfds sockfd
    pure (sockfd, server)

/-- `main` after its loop. -/
def finish (sockfd : Int) (server : Server) : PollSys Int :=
  shutdown (fun fd => fd > 0) server.clientSockets server.clientCount sockfd

/-- `main`, observed for at most `rounds` rounds of its loop. -/
def main (rounds : Nat) : PollSys Int := do
  let (sockfd, server) ← start
  let server ← loop mainRound rounds server
  finish sockfd server

/-- The states in which `main` is at the head of its loop, in any run. -/
inductive AtLoopHead (environment : Environment (List UInt16)) :
    Int → Server → World (List UInt16) → Prop
  | entry {sockfd : Int} {server : Server} {world : World (List UInt16)} :
      start environment.boot = .ok (sockfd, server) world →
      AtLoopHead environment sockfd server world
  | again {sockfd : Int} {server server' : Server} {world world' : World (List UInt16)} :
      AtLoopHead environment sockfd server world →
      mainRound server world = .ok (.inl server') world' →
      AtLoopHead environment sockfd server' world'

end CExamples.IoMultiplexing.Poll
