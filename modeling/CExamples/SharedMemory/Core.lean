import CExamples.Transition.Core
import CExamples.Transition.Resources
import CExamples.Word.CString

/-!
# Words through shared memory

`shared-memory/mmap-munmap/client.c` and `server.c`.  The client copies each word of
its file into the shared memory, posts `client_sem` and waits for `server_sem`; the
server waits, prints the word and posts.  An empty string tells that the words have
ended, and then each of the two waits for `server_sem` once more.

A process moves by one access to a semaphore or to the memory, together with the
local work that follows.  The client stores one byte at a time; the server compares
or prints the whole string.
-/

namespace CExamples.SharedMemory

open CExamples.Transition
open CExamples.Word

/-- `SHM_SIZE` -/
def shmSize : Nat :=
  1024

/-- The mapped memory. -/
structure Memory where
  bytes : List UInt8
  large : shmSize ≤ bytes.length
  deriving DecidableEq

/-- `shm_ptr[index] = byte` -/
def Memory.store (memory : Memory) (index : Nat) (byte : UInt8) : Memory where
  bytes := memory.bytes.set index byte
  large := by
    rw [List.length_set]
    exact memory.large

/-- The string at `shm_ptr`. -/
def Memory.string (memory : Memory) : List UInt8 :=
  cString memory.bytes

/-- Where the client is, with the words that follow. -/
inductive Client
  /-- at the length check of the next word -/
  | next (words : List Token)
  /-- before the store of the byte `index` of the word or of its terminator -/
  | copy (word : Token) (index : Nat) (later : List Token)
  /-- before `sem_post(client_sem)` -/
  | post (word : Token) (later : List Token)
  /-- in `sem_wait(server_sem)` -/
  | wait (word : Token) (later : List Token)
  /-- before `shm_ptr[0] = '\0'` -/
  | clear
  /-- before the last `sem_post(client_sem)` -/
  | postLast
  /-- in the last `sem_wait(server_sem)` -/
  | waitLast
  /-- after the cleanup -/
  | returned
  /-- after `exit(EXIT_FAILURE)` -/
  | failed
  deriving DecidableEq

/-- Where the server is. -/
inductive Server
  /-- in `sem_wait(client_sem)` -/
  | wait
  /-- before `strcmp(shm_ptr, "")` -/
  | compare
  /-- before the word is printed -/
  | print
  /-- before `sem_post(server_sem)` -/
  | post
  /-- before the `sem_post(server_sem)` that leaves the loop -/
  | postLast
  /-- in the last `sem_wait(server_sem)` -/
  | waitLast
  /-- after the cleanup -/
  | returned
  deriving DecidableEq, Repr

/-- The two processes, what they share and the words printed. -/
structure State where
  client : Client
  server : Server
  memory : Memory
  clientSem : Nat
  serverSem : Nat
  printed : List (List UInt8)
  deriving DecidableEq

/-- The process that moves. -/
inductive Process
  | client
  | server
  deriving DecidableEq, Repr

/-- The state in which both processes have opened the memory and the semaphores. -/
def initial (memory : Memory) (words : List Token) : State where
  client := .next words
  server := .wait
  memory := memory
  clientSem := 0
  serverSem := 0
  printed := []

/-- A step of the client's `main`. -/
def clientStep (state : State) : Option State :=
  match state.client with
  | .next [] => some { state with client := .clear }
  | .next (word :: later) =>
      if word.length ≥ shmSize - 1 then some { state with client := .failed }
      else some { state with client := .copy word 0 later }
  | .copy word index later =>
      match word.bytes[index]? with
      | some byte =>
          some { state with
            memory := state.memory.store index byte
            client := .copy word (index + 1) later }
      | none =>
          some { state with
            memory := state.memory.store word.length 0
            client := .post word later }
  | .post word later =>
      some { state with clientSem := state.clientSem + 1, client := .wait word later }
  | .wait _ later =>
      (semWait state.serverSem).map fun serverSem =>
        { state with serverSem := serverSem, client := .next later }
  | .clear => some { state with memory := state.memory.store 0 0, client := .postLast }
  | .postLast => some { state with clientSem := state.clientSem + 1, client := .waitLast }
  | .waitLast =>
      (semWait state.serverSem).map fun serverSem =>
        { state with serverSem := serverSem, client := .returned }
  | .returned => none
  | .failed => none

/-- A step of the server's `main`, where `mmap` has not returned `NULL`. -/
def serverStep (state : State) : Option State :=
  match state.server with
  | .wait =>
      (semWait state.clientSem).map fun clientSem =>
        { state with clientSem := clientSem, server := .compare }
  | .compare =>
      if state.memory.string = [] then some { state with server := .postLast }
      else some { state with server := .print }
  | .print => some { state with printed := state.printed ++ [state.memory.string], server := .post }
  | .post => some { state with serverSem := state.serverSem + 1, server := .wait }
  | .postLast => some { state with serverSem := state.serverSem + 1, server := .waitLast }
  | .waitLast =>
      (semWait state.serverSem).map fun serverSem =>
        { state with serverSem := serverSem, server := .returned }
  | .returned => none

/-- A step of either process. -/
def step : Step State Process :=
  fun state process =>
    match process with
    | .client => clientStep state
    | .server => serverStep state

end CExamples.SharedMemory
