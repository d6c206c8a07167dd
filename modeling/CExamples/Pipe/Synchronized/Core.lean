import CExamples.Pipe.Reliable.Lockstep

/-!
# The synchronized pipe

`pipe/synchronized/main.c`.  The processes exchange frames as through the simple
pipe.  After a frame the child posts `sem_parent` and waits for `sem_child`; the
parent waits for `sem_parent` before a frame and posts `sem_child` after it has
printed it.

A process moves at one of its calls, together with the local work that follows
it.  No `write` is longer than `PIPE_BUF`, so each is done as a whole, and a
`read` gets what is there.  The state also counts the frames written, posted,
begun to be read and acknowledged.
-/

namespace CExamples.Pipe.Synchronized

open CExamples.Transition
open CExamples.Word
open CExamples.Pipe.Reliable (Caller Line)

/-! ## The semaphores -/

/-- `O_CREAT` -/
def oCreat : Nat :=
  0o100

/-- `S_IRUSR | S_IWUSR | S_IRGRP | S_IROTH` -/
def permissions : Nat :=
  0o400 ||| 0o200 ||| 0o040 ||| 0o004

/-- The value of a semaphore that `sem_open` creates.  After the name and the
flags it takes a mode and a value, and no more. -/
def semOpen (_flags _mode value : Nat) (_more : List Nat) : Nat :=
  value

/-- `sem_open(SEM_PARENT, O_CREAT, O_CREAT, S_IRUSR | …, 0)` -/
def openParent : Nat :=
  semOpen oCreat oCreat permissions [0]

/-- `sem_open(SEM_CHILD, O_CREAT, O_CREAT, S_IRUSR | …, 1)` -/
def openChild : Nat :=
  semOpen oCreat oCreat permissions [1]

/-! ## The processes -/

/-- `MAX_WORD_LENGTH` -/
def maxWordLength : Nat :=
  255

/-- Where the child is.  `word` holds the letters of `word[0..length)`. -/
inductive Child
  /-- before `close(pipefd[0])` -/
  | start (file : List UInt8)
  /-- at `fgetc` -/
  | reading (file word : List UInt8)
  /-- at the `write` of the length -/
  | writeLength (word : List UInt8) (caller : Caller)
  /-- at the `write` of the word -/
  | writeWord (word : List UInt8) (caller : Caller)
  /-- before `sem_post(sem_parent)` -/
  | post (caller : Caller)
  /-- in `sem_wait(sem_child)` -/
  | wait (caller : Caller)
  /-- before `fclose` and `close(pipefd[1])` -/
  | closing
  | exited
  /-- after `error_exit`, or killed by SIGPIPE -/
  | failed
  deriving DecidableEq, Repr

/-- Where the parent is. -/
inductive Parent
  /-- before `close(pipefd[1])` -/
  | start
  /-- in `sem_wait(sem_parent)` -/
  | wait
  /-- at the `read` of the length -/
  | readLength
  /-- at the `read` of the word -/
  | readWord
  /-- before the terminator is stored and the line printed -/
  | print
  /-- before `sem_post(sem_child)` -/
  | post
  /-- before `close(pipefd[0])` -/
  | closing
  | exited
  deriving DecidableEq, Repr

/-- The two processes and what they share.  `length` and `word` are the variables
of `parent_process`; `written`, `posted`, `begun` and `acknowledged` count frames. -/
structure State where
  child : Child
  parent : Parent
  pipe : List UInt8
  semParent : Nat
  semChild : Nat
  length : UInt8
  word : List UInt8
  printed : List Line
  written : Nat
  posted : Nat
  begun : Nat
  acknowledged : Nat
  deriving DecidableEq, Repr

/-- The state after `fork`.  The parent's variables are not initialized. -/
def initial (semParent semChild : Nat) (file : List UInt8) (length : UInt8)
    (word : List UInt8) : State where
  child := .start file
  parent := .start
  pipe := []
  semParent := semParent
  semChild := semChild
  length := length
  word := word
  printed := []
  written := 0
  posted := 0
  begun := 0
  acknowledged := 0

/-- The process that moves. -/
inductive Action
  | child
  | parent
  deriving DecidableEq, Repr

namespace State

/-- Some process holds the write end of the pipe open. -/
def hasWriter (state : State) : Bool :=
  state.parent = .start || !(state.child = .exited || state.child = .failed)

/-- Some process holds the read end of the pipe open. -/
def hasReader (state : State) : Bool :=
  match state.parent, state.child with
  | .exited, .start _ => true
  | .exited, _ => false
  | _, _ => true

end State

/-- Where the child goes on after `send_word`. -/
def afterSend : Caller → Child
  | .loop file => .reading file []
  | .lastWord => .writeLength [] .terminator
  | .terminator => .closing

/-- A `write` of the child: without a reader it is killed. -/
def write (capacity : Nat) (state : State) (data : List UInt8)
    (next : List UInt8 → State) : Option State :=
  if state.hasReader then
    (pushWhole capacity state.pipe data).map next
  else
    some { state with child := .failed }

/-- A step of `child_process`. -/
def childStep (capacity : Nat) (state : State) : Option State :=
  match state.child with
  | .start file => some { state with child := .reading file [] }
  | .reading (ch :: file) word =>
      if isDelimiter ch then
        if word.length > 0 then some { state with child := .writeLength word (.loop file) }
        else some { state with child := .reading file word }
      else if word.length ≥ maxWordLength then some { state with child := .failed }
      else some { state with child := .reading file (word ++ [ch]) }
  | .reading [] word =>
      if word.length > 0 then some { state with child := .writeLength word .lastWord }
      else some { state with child := .writeLength [] .terminator }
  | .writeLength word caller =>
      write capacity state [UInt8.ofNat word.length] fun pipe =>
        if word.length > 0 then { state with pipe := pipe, child := .writeWord word caller }
        else { state with pipe := pipe, child := .post caller, written := state.written + 1 }
  | .writeWord word caller =>
      write capacity state word fun pipe =>
        { state with pipe := pipe, child := .post caller, written := state.written + 1 }
  | .post caller =>
      some { state with
        semParent := state.semParent + 1
        posted := state.posted + 1
        child := .wait caller }
  | .wait caller =>
      (semWait state.semChild).map fun semChild =>
        { state with semChild := semChild, child := afterSend caller }
  | .closing => some { state with child := .exited }
  | .exited => none
  | .failed => none

/-- A `read` of the parent. -/
def read (state : State) (wanted : Nat) : Option (List UInt8 × List UInt8) :=
  pullUpTo state.hasWriter state.pipe wanted

/-- A step of `parent_process`. -/
def parentStep (state : State) : Option State :=
  match state.parent with
  | .start => some { state with parent := .wait }
  | .wait =>
      (semWait state.semParent).map fun semParent =>
        { state with semParent := semParent, parent := .readLength }
  | .readLength =>
      (read state 1).map fun (got, pipe) =>
        let length := got.headD state.length
        { state with
          pipe := pipe
          length := length
          begun := state.begun + got.length
          parent := if length = 0 then .closing else .readWord }
  | .readWord =>
      (read state state.length.toNat).map fun (got, pipe) =>
        { state with
          pipe := pipe
          word := got ++ state.word.drop got.length
          parent := .print }
  | .print =>
      let word := state.word.set state.length.toNat 0
      some { state with
        word := word
        printed := state.printed ++ [(state.length, cString word)]
        parent := .post }
  | .post =>
      some { state with
        semChild := state.semChild + 1
        acknowledged := state.acknowledged + 1
        parent := .wait }
  | .closing => some { state with parent := .exited }
  | .exited => none

/-- A step of either process. -/
def step (capacity : Nat) : Step State Action :=
  fun state action =>
    match action with
    | .child => childStep capacity state
    | .parent => parentStep state

end CExamples.Pipe.Synchronized
