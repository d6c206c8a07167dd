import CExamples.IoMultiplexing.ReadWord
import CExamples.Program.SizeT

/-!
# The select server

`io-multiplexing/select/main.c`.  The client descriptors are the first
`client_count` slots of a growing array, and `readfds` is built from them before
every call of `select`.  Indices are of type `size_t`, so that the `i--` after a
removal wraps at index 0 before the loop's `i++`.
-/

namespace CExamples.IoMultiplexing.Select

open CExamples.Program

/-- `fd_set`: the descriptors whose bit is set. -/
abbrev FdSet := List Int

/-- The client array of `main`. -/
structure Server where
  clientSockets : List Int
  clientCount : UInt64
  clientCapacity : UInt64
  deriving DecidableEq, Repr

/-- The programs of the select server; an answer of `select` lists descriptors
that are ready. -/
abbrev SelectSys (α : Type) := Sys (List Int) α

/-- `fd_in_select_range` -/
def fdInSelectRange (fd : Int) : Bool :=
  fd ≥ 0 && fd < fdSetsize

/-- `fd_set_safe` -/
def fdSetSafe (fd : Int) (set : FdSet) : FdSet :=
  if fdInSelectRange fd then fd :: set else set

/-- `fd_isset_safe` -/
def fdIssetSafe (fd : Int) (set : FdSet) : Bool :=
  fdInSelectRange fd && set.contains fd

/-- `grow_clients` -/
def growClients (server : Server) : SelectSys Server := do
  let newCap := if server.clientCapacity = 0 then 4 else server.clientCapacity * 2
  if ← allocate then
    let world ← get
    let clientSockets := resize server.clientSockets (slotsOf newCap 4) world.junk
    pure { server with clientSockets, clientCapacity := newCap }
  else
    exit "realloc"

/-- `remove_client` -/
def removeClient (server : Server) (idx : UInt64) : SelectSys Server := do
  let last := server.clientCount - 1
  if idx ≠ last then do
    let lastSocket ← load server.clientSockets last.toNat
    let clientSockets ← store server.clientSockets idx.toNat lastSocket
    pure { server with clientSockets, clientCount := server.clientCount - 1 }
  else
    pure { server with clientCount := server.clientCount - 1 }

/-- The local variables of the loop that builds `readfds`. -/
structure Build where
  i : UInt64
  server : Server
  readfds : FdSet
  maxFd : Int

/-- One round of the loop that builds `readfds`. -/
def buildRound (build : Build) : SelectSys (Build ⊕ Build) := do
  if build.i < build.server.clientCount then do
    let sd ← load build.server.clientSockets build.i.toNat
    if sd < 0 then
      pure (.inl { build with i := build.i + 1 })
    else if sd ≥ fdSetsize then do
      print (.clientOutOfRange sd)
      let _ ← close sd
      let server ← removeClient build.server build.i
      pure (.inl { build with i := build.i - 1 + 1, server })
    else
      pure (.inl { build with
        i := build.i + 1
        readfds := fdSetSafe sd build.readfds
        maxFd := if sd > build.maxFd then sd else build.maxFd })
  else
    pure (.inr build)

/-- The loop that builds `readfds`; each round either advances the index or
shortens the array. -/
def buildReadfds (sockfd : Int) (server : Server) : SelectSys Build :=
  loop buildRound (server.clientCount.toNat + 1) ⟨0, server, fdSetSafe sockfd [], sockfd⟩

/-- `select(nfds, readfds, NULL, NULL, NULL)`: of the descriptors below `nfds`
whose bit is set, those that are ready keep it. -/
def select (nfds : Int) (readfds : FdSet) : SelectSys (Reply FdSet) := do
  modify fun world => world.record (.selecting nfds)
  match ← multiplex .select with
  | .returned ready =>
      pure (.returned (readfds.filter fun fd => fd < nfds && ready.contains fd))
  | .interrupted sigint => pure (.interrupted sigint)
  | .failed => pure .failed

/-- The accepted descriptor is stored after the last client. -/
def storeClient (server : Server) (newSocket : Int) : SelectSys Server := do
  let clientSockets ← store server.clientSockets server.clientCount.toNat newSocket
  print (.established newSocket)
  pure { server with clientSockets, clientCount := server.clientCount + 1 }

/-- The part of the main loop that accepts a connection. -/
def acceptClient (sockfd : Int) (readfds : FdSet) (server : Server) : SelectSys Server := do
  if fdIssetSafe sockfd readfds then
    match ← accept with
    | .returned newSocket =>
        if newSocket ≥ fdSetsize then do
          print (.acceptedOutOfRange newSocket)
          let _ ← close newSocket
          pure server
        else if server.clientCount = server.clientCapacity then do
          let server ← growClients server
          storeClient server newSocket
        else
          storeClient server newSocket
    | _ => exit "Accept error"
  else
    pure server

/-- One round of the Client IO loop. -/
def clientIoRound (readfds : FdSet) :
    UInt64 × Server → SelectSys ((UInt64 × Server) ⊕ Server)
  | (i, server) =>
      if i < server.clientCount then do
        let sd ← load server.clientSockets i.toNat
        if !fdInSelectRange sd then
          pure (.inl (i + 1, server))
        else if fdIssetSafe sd readfds then do
          if ← readWord sd then
            pure (.inl (i + 1, server))
          else do
            let _ ← close sd
            let server ← removeClient server i
            pure (.inl (i - 1 + 1, server))
        else
          pure (.inl (i + 1, server))
      else
        pure (.inr server)

/-- The Client IO loop; each round either advances the index or shortens the
array. -/
def clientIo (readfds : FdSet) (server : Server) : SelectSys Server :=
  loop (clientIoRound readfds) (server.clientCount.toNat + 1) (0, server)

/-- The body of the `while(!exit_flag)` loop of `main`. -/
def mainBody (sockfd : Int) (server : Server) : SelectSys Server := do
  let build ← buildReadfds sockfd server
  match ← select (build.maxFd + 1) build.readfds with
  | .returned readfds => do
      let server ← acceptClient sockfd readfds build.server
      clientIo readfds server
  | .interrupted _ => pure build.server
  | .failed => exit "Select error"

/-- One round of the `while(!exit_flag)` loop of `main`. -/
def mainRound (sockfd : Int) (server : Server) : SelectSys (Server ⊕ Server) := do
  if ← readExitFlag then
    pure (.inr server)
  else do
    let server ← mainBody sockfd server
    pure (.inl server)

/-- Leave before the loop is entered. -/
def abandon {α : Type} (sockfd : Int) (message : String) : SelectSys α := do
  socketClose sockfd
  unlink
  exit message

/-- `main` up to its loop. -/
def start : SelectSys (Int × Server) := do
  unlink
  let sockfd ← socket
  if sockfd = -1 then exit "socket"
  else if !(← bind) then abandon sockfd "bind error"
  else if !(← listen) then abandon sockfd "Listen error"
  else if sockfd < 0 || sockfd ≥ fdSetsize then do
    if sockfd ≥ 0 then socketClose sockfd
    unlink
    exit s!"Server socket fd {sockfd} is out of range for select() (FD_SETSIZE={fdSetsize})"
  else
    pure (sockfd, ⟨[], 0, 0⟩)

/-- `main` after its loop. -/
def finish (sockfd : Int) (server : Server) : SelectSys Int :=
  shutdown (fun fd => fd ≥ 0) server.clientSockets server.clientCount sockfd

/-- `main`, observed for at most `rounds` rounds of its loop. -/
def main (rounds : Nat) : SelectSys Int := do
  let (sockfd, server) ← start
  let server ← loop (mainRound sockfd) rounds server
  finish sockfd server

/-- The states in which `main` is at the head of its loop, in any run. -/
inductive AtLoopHead (environment : Environment (List Int)) :
    Int → Server → World (List Int) → Prop
  | entry {sockfd : Int} {server : Server} {world : World (List Int)} :
      start environment.boot = .ok (sockfd, server) world →
      AtLoopHead environment sockfd server world
  | again {sockfd : Int} {server server' : Server} {world world' : World (List Int)} :
      AtLoopHead environment sockfd server world →
      mainRound sockfd server world = .ok (.inl server') world' →
      AtLoopHead environment sockfd server' world'

end CExamples.IoMultiplexing.Select
