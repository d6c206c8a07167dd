import CExamples.Program.Array
import Mathlib.Logic.Function.Basic

/-!
# The system calls of the event-loop servers

The poll and the select server run against one kernel.  Everything the kernel
decides is data of the `World`: the answers to the multiplexing call, to
`accept`, to each `read` of each connection, to the allocator, and the moments
at which SIGINT arrives.  A call whose answers are used up has not returned
yet, so the program is blocked in it; a finite list of answers is therefore a
finite beginning of a run, and all of them together are all runs.

The trace records, newest first, what the process did with its descriptors and
what it printed.
-/

namespace CExamples.IoMultiplexing

open CExamples.Program

/-- `FD_SETSIZE` -/
def fdSetsize : Int :=
  1024

/-- One answer to a `read` of a connection: bytes that are there when it is
made, the end of the stream, `-1` with `EINTR` (after the SIGINT handler ran
when `sigint` is set), or `-1` with another error. -/
inductive ReadReply
  | bytes (first : UInt8) (more : List UInt8)
  | endOfStream
  | interrupted (sigint : Bool)
  | failed
  deriving DecidableEq, Repr

/-- One answer to `poll`, `select` or `accept`. -/
inductive Reply (α : Type)
  | returned (value : α)
  | interrupted (sigint : Bool)
  | failed
  deriving DecidableEq, Repr

/-- The calls that can wait. -/
inductive Call
  | poll
  | select
  | accept
  | read (fd : Int)
  deriving DecidableEq, Repr

/-- The lines the servers print about a descriptor. -/
inductive Line
  /-- `Client %d disconnected` -/
  | disconnected (fd : Int)
  /-- `Client %d sent oversize word length (%zu)` -/
  | oversize (fd : Int) (wordLength : Nat)
  /-- `Received word from client %d: %s` -/
  | received (fd : Int) (word : List UInt8)
  /-- `New connection established (fd=%d)` -/
  | established (fd : Int)
  /-- `Accepted client fd %d out of range for select(); closing` -/
  | acceptedOutOfRange (fd : Int)
  /-- `Client fd %d is out of range for select(); disconnecting` -/
  | clientOutOfRange (fd : Int)
  deriving DecidableEq, Repr

/-- What the trace records.  `reading` marks the start of an attempt to read a
frame, `selecting` a call of `select` with its first argument. -/
inductive Event
  | accepted (fd : Int)
  | closed (fd : Int)
  | reading (fd : Int)
  | selecting (nfds : Int)
  | printed (line : Line)
  deriving DecidableEq, Repr

/-- A connection as the kernel sees it: the answers to all its reads, those not
given yet, whether the end of the stream was reported, and the words printed
for it. -/
structure Connection where
  arrived : List ReadReply
  pending : List ReadReply
  ended : Bool
  words : List (List UInt8)
  deriving DecidableEq, Repr

/-- A connection that was just accepted. -/
def Connection.fresh (replies : List ReadReply) : Connection :=
  ⟨replies, replies, false, []⟩

/-- The environment of a server whose multiplexing call answers with `ρ`,
together with what the process did so far.  `word` is the stack slot of the
uninitialised word buffer, `junk` what the allocator leaves in new memory, and
`socketPath` tells whether `SOCKET_PATH` exists. -/
structure World (ρ : Type) where
  exitFlag : Bool
  signals : List Bool
  ready : List (Reply ρ)
  incoming : List (Reply (Int × List ReadReply))
  allocations : List Bool
  junk : Nat → Int
  socketReply : Option Int
  bindReply : Bool
  listenReply : Bool
  listening : Option Int
  socketPath : Bool
  connection : Int → Connection
  dropped : List Connection
  word : List UInt8
  trace : List Event

/-- The programs of the event-loop servers. -/
abbrev Sys (ρ α : Type) := Prog Call (World ρ) α

/-- The descriptors that `accept` returned and that were not closed since. -/
def openDescriptors : List Event → List Int
  | [] => []
  | .accepted fd :: trace => fd :: openDescriptors trace
  | .closed fd :: trace => (openDescriptors trace).erase fd
  | .reading _ :: trace => openDescriptors trace
  | .selecting _ :: trace => openDescriptors trace
  | .printed _ :: trace => openDescriptors trace

/-- The descriptors from which a frame was requested, newest first. -/
def attempts : List Event → List Int
  | [] => []
  | .reading fd :: trace => fd :: attempts trace
  | .accepted _ :: trace => attempts trace
  | .closed _ :: trace => attempts trace
  | .selecting _ :: trace => attempts trace
  | .printed _ :: trace => attempts trace

/-- Every `close` in the trace closed a descriptor that was accepted and not
closed since, so no accepted descriptor was closed twice. -/
def ClosedOnce : List Event → Prop
  | [] => True
  | .closed fd :: trace => fd ∈ openDescriptors trace ∧ ClosedOnce trace
  | .accepted _ :: trace => ClosedOnce trace
  | .reading _ :: trace => ClosedOnce trace
  | .selecting _ :: trace => ClosedOnce trace
  | .printed _ :: trace => ClosedOnce trace

/-- The words in the lines printed for `fd` since it was accepted. -/
def spoken (fd : Int) : List Event → List (List UInt8)
  | [] => []
  | .accepted other :: trace => if other = fd then [] else spoken fd trace
  | .printed (.received other word) :: trace =>
      if other = fd then spoken fd trace ++ [word] else spoken fd trace
  | .printed _ :: trace => spoken fd trace
  | .closed _ :: trace => spoken fd trace
  | .reading _ :: trace => spoken fd trace
  | .selecting _ :: trace => spoken fd trace

/-- The words printed for each connection that was closed. -/
def spokenBefore : List Event → List (List (List UInt8))
  | [] => []
  | .closed fd :: trace => spoken fd trace :: spokenBefore trace
  | .accepted _ :: trace => spokenBefore trace
  | .reading _ :: trace => spokenBefore trace
  | .selecting _ :: trace => spokenBefore trace
  | .printed _ :: trace => spokenBefore trace

/-- The words printed for each connection, open or closed. -/
def transcript (trace : List Event) : List (List (List UInt8)) :=
  (openDescriptors trace).map (fun fd => spoken fd trace) ++ spokenBefore trace

variable {ρ : Type}

namespace World

/-- The descriptors of the open connections. -/
def opened (world : World ρ) : List Int :=
  openDescriptors world.trace

/-- The connections that are open or were closed. -/
def connections (world : World ρ) : List Connection :=
  world.opened.map world.connection ++ world.dropped

/-- Add an event to the trace. -/
def record (world : World ρ) (event : Event) : World ρ :=
  { world with trace := event :: world.trace }

/-- The SIGINT handler ran, if `sigint` is set. -/
def interrupt (world : World ρ) (sigint : Bool) : World ρ :=
  { world with exitFlag := world.exitFlag || sigint }

end World

/-- `exit` with a status after `perror` or a message. -/
def exit {α : Type} (message : String) : Sys ρ α :=
  throw (.exit 1 message)

/-- The volatile read of `exit_flag`; SIGINT may have arrived since the last
one without interrupting a call. -/
def readExitFlag : Sys ρ Bool := do
  let world ← get
  match world.signals with
  | [] => pure world.exitFlag
  | sigint :: signals =>
      set { world.interrupt sigint with signals := signals }
      pure (world.exitFlag || sigint)

/-- `socket(AF_UNIX, SOCK_STREAM, 0)`: a descriptor, or `-1`. -/
def socket : Sys ρ Int := do
  let world ← get
  match world.socketReply with
  | none => pure (-1)
  | some fd =>
      set { world with listening := some fd }
      pure fd

/-- `bind` to `SOCKET_PATH`, which it creates. -/
def bind : Sys ρ Bool := do
  let world ← get
  if world.bindReply then set { world with socketPath := true }
  pure world.bindReply

/-- `listen`. -/
def listen : Sys ρ Bool := do
  let world ← get
  pure world.listenReply

/-- `unlink(SOCKET_PATH)`. -/
def unlink : Sys ρ Unit :=
  modify fun world => { world with socketPath := false }

/-- `malloc` and `realloc` succeed or return `NULL`. -/
def allocate : Sys ρ Bool := do
  let world ← get
  match world.allocations with
  | [] => pure true
  | succeeds :: allocations =>
      set { world with allocations := allocations }
      pure succeeds

/-- The multiplexing call: the next answer about which descriptors are ready. -/
def multiplex (call : Call) : Sys ρ (Reply ρ) := do
  let world ← get
  match world.ready with
  | [] => throw (.blocked call)
  | .interrupted sigint :: ready =>
      set { world.interrupt sigint with ready := ready }
      pure (.interrupted sigint)
  | reply :: ready =>
      set { world with ready := ready }
      pure reply

/-- `accept` may only return a descriptor that is not open; any other answer is
no behaviour of the kernel. -/
def World.Acceptable (world : World ρ) (fd : Int) : Prop :=
  0 ≤ fd ∧ fd < 2147483648 ∧ world.listening ≠ some fd ∧ fd ∉ world.opened

instance (world : World ρ) (fd : Int) : Decidable (world.Acceptable fd) :=
  inferInstanceAs (Decidable (_ ∧ _ ∧ _ ∧ _))

/-- The world after a connection was accepted. -/
def World.established (world : World ρ) (fd : Int) (replies : List ReadReply) : World ρ :=
  { world with
    connection := Function.update world.connection fd (Connection.fresh replies)
    trace := .accepted fd :: world.trace }

/-- `accept(sockfd, ...)`. -/
def accept : Sys ρ (Reply Int) := do
  let world ← get
  match world.incoming with
  | [] => throw (.blocked .accept)
  | .returned (fd, replies) :: incoming =>
      if world.Acceptable fd then do
        set { world.established fd replies with incoming := incoming }
        pure (.returned fd)
      else
        throw (.blocked .accept)
  | .interrupted sigint :: incoming =>
      set { world.interrupt sigint with incoming := incoming }
      pure (.interrupted sigint)
  | .failed :: incoming =>
      set { world with incoming := incoming }
      pure .failed

/-- The world after `close` of an accepted descriptor. -/
def World.closing (world : World ρ) (fd : Int) : World ρ :=
  { world with
    dropped := world.connection fd :: world.dropped
    trace := .closed fd :: world.trace }

/-- `close(fd)`; the result is whether the descriptor was open. -/
def close (fd : Int) : Sys ρ Bool := do
  let world ← get
  if world.listening = some fd then do
    set { world with listening := none }
    pure true
  else if fd ∈ world.opened then do
    set (world.closing fd)
    pure true
  else do
    set (world.record (.closed fd))
    pure false

/-- Closing an open connection. -/
theorem wp_close {fd : Int} {world : World ρ} (isOpen : fd ∈ world.opened)
    (notListening : world.listening ≠ some fd) {post : Bool → World ρ → Prop}
    {halt : Halt Call → World ρ → Prop} :
    wp (close fd) post halt world ↔ post true (world.closing fd) := by
  simp [close, notListening, isOpen]

/-- Closing the listening socket. -/
theorem wp_close_listening {fd : Int} {world : World ρ} (listening : world.listening = some fd)
    {post : Bool → World ρ → Prop} {halt : Halt Call → World ρ → Prop} :
    wp (close fd) post halt world ↔ post true { world with listening := none } := by
  simp [close, listening]

/-- `socket_close` -/
def socketClose (fd : Int) : Sys ρ Unit := do
  if ← close fd then pure () else exit "Error closing socket"

/-- The end of `main`: the stored clients that pass a test are closed, then the
listening socket. -/
def shutdown (stored : Int → Bool) (clientSockets : List Int) (clientCount : UInt64)
    (sockfd : Int) : Sys ρ Int := do
  forRange (fun i _ => do
      let fd ← load clientSockets i
      if stored fd then socketClose fd else pure ())
    clientCount.toNat 0 ()
  socketClose sockfd
  unlink
  pure 0

/-- Print a line about a descriptor. -/
def print (line : Line) : Sys ρ Unit :=
  modify fun world => world.record (.printed line)

/-- The result of one `read`: some bytes, 0, or -1. -/
inductive ReadResult
  | bytes (got : List UInt8)
  | endOfStream
  | interrupted (sigint : Bool)
  | failed
  deriving DecidableEq, Repr

/-- Bytes that a `read` left behind stay available. -/
def putBack : List UInt8 → List ReadReply → List ReadReply
  | [], replies => replies
  | first :: more, replies => .bytes first more :: replies

/-- The kernel's answer to a `read` of at most `count` bytes, and the answers
left for later reads. -/
def answerRead (count : Nat) : List ReadReply → Option (ReadResult × List ReadReply)
  | [] => none
  | .bytes first more :: replies =>
      some (.bytes ((first :: more).take count), putBack ((first :: more).drop count) replies)
  | .endOfStream :: replies => some (.endOfStream, replies)
  | .interrupted sigint :: replies => some (.interrupted sigint, replies)
  | .failed :: replies => some (.failed, replies)

/-- Whether a result reports the end of the stream. -/
def ReadResult.isEnd : ReadResult → Bool
  | .endOfStream => true
  | _ => false

/-- Whether SIGINT arrived during the call. -/
def ReadResult.sigint : ReadResult → Bool
  | .interrupted sigint => sigint
  | _ => false

/-- The world after a connection's answers were used up to `pending`. -/
def World.consume (world : World ρ) (fd : Int) (pending : List ReadReply)
    (ended sigint : Bool) : World ρ :=
  { world with
    connection := Function.update world.connection fd
      { world.connection fd with
        pending := pending
        ended := (world.connection fd).ended || ended }
    exitFlag := world.exitFlag || sigint }

/-- `read(fd, ..., count)`. -/
def read (fd : Int) (count : Nat) : Sys ρ ReadResult := do
  let world ← get
  if fd ∈ world.opened then
    match answerRead count (world.connection fd).pending with
    | none => throw (.blocked (.read fd))
    | some (result, pending) => do
        set (world.consume fd pending result.isEnd result.sigint)
        pure result
  else
    pure .failed

/-- The initial world: nothing happened yet, and the kernel's answers are
arbitrary. -/
structure Environment (ρ : Type) where
  signals : List Bool
  ready : List (Reply ρ)
  incoming : List (Reply (Int × List ReadReply))
  allocations : List Bool
  junk : Nat → Int
  socketReply : Option Int
  bindReply : Bool
  listenReply : Bool
  socketPath : Bool
  word : Fin 256 → UInt8

/-- The world in which `main` starts. -/
def Environment.boot (environment : Environment ρ) : World ρ where
  exitFlag := false
  signals := environment.signals
  ready := environment.ready
  incoming := environment.incoming
  allocations := environment.allocations
  junk := environment.junk
  socketReply := environment.socketReply
  bindReply := environment.bindReply
  listenReply := environment.listenReply
  listening := none
  socketPath := environment.socketPath
  connection := fun _ => Connection.fresh []
  dropped := []
  word := List.ofFn environment.word
  trace := []

end CExamples.IoMultiplexing
