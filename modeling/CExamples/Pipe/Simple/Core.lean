import CExamples.Pipe.Reliable.Lockstep

/-!
# The simple pipe

`pipe/simple/main.c`.  The child reads words from a file as in the reliable pipe
and sends each as a frame: one `write` for the length and one for the word.  The
parent prints the frames it reads, one `read` for the length and one for the
word, until a frame of length zero.  There is nothing else between them.

A process moves at one of its calls, together with the local work that follows
it.  No `write` is longer than `PIPE_BUF`, so each is done as a whole, and a
`read` gets what is there.  The parent's variables keep their values where a
`read` gets nothing.  `send_word` also logs the frame it has written.
-/

namespace CExamples.Pipe.Simple

open CExamples.Transition
open CExamples.Word
open CExamples.Pipe.Reliable (Caller Line framesOf line)

/-- `MAX_WORD_LENGTH` -/
def maxWordLength : Nat :=
  255

/-- Where the child is.  `word` holds the letters of `word[0..length)`. -/
inductive Child
  /-- before `close(pipefd[0])` -/
  | start (file : List UInt8)
  /-- at `fgetc` -/
  | reading (file word : List UInt8)
  /-- at the `write` of the length -/
  | writeLength (word : List UInt8) (caller : Caller)
  /-- at the `write` of the word -/
  | writeWord (word : List UInt8) (caller : Caller)
  /-- before `fclose` and `close(pipefd[1])` -/
  | closing
  | exited
  /-- after `error_exit`, or killed by SIGPIPE -/
  | failed
  deriving DecidableEq, Repr

/-- Where the parent is. -/
inductive Parent
  /-- before `close(pipefd[1])` -/
  | start
  /-- at the `read` of the length -/
  | readLength
  /-- at the `read` of the word -/
  | readWord
  /-- before the terminator is stored and the line printed -/
  | print
  /-- before `close(pipefd[0])` -/
  | closing
  | exited
  deriving DecidableEq, Repr

/-- The two processes, the pipe and what was written and printed.  `length` and
`word` are the variables of `parent_process`; a word of `MAX_WORD_LENGTH` letters
has its terminator in the byte behind the array, which `word` includes. -/
structure State where
  child : Child
  parent : Parent
  pipe : List UInt8
  length : UInt8
  word : List UInt8
  sent : List (List UInt8)
  printed : List Line
  deriving DecidableEq, Repr

/-- The state after `fork`.  The parent's variables are not initialized. -/
def initial (file : List UInt8) (length : UInt8) (word : List UInt8) : State where
  child := .start file
  parent := .start
  pipe := []
  length := length
  word := word
  sent := []
  printed := []

/-- The process that moves. -/
inductive Action
  | child
  | parent
  deriving DecidableEq, Repr

namespace State

/-- Some process holds the write end of the pipe open. -/
def hasWriter (state : State) : Bool :=
  state.parent = .start || !(state.child = .exited || state.child = .failed)

/-- Some process holds the read end of the pipe open. -/
def hasReader (state : State) : Bool :=
  match state.parent, state.child with
  | .exited, .start _ => true
  | .exited, _ => false
  | _, _ => true

end State

/-- Where the child goes on after `send_word`. -/
def afterSend : Caller → Child
  | .loop file => .reading file []
  | .lastWord => .writeLength [] .terminator
  | .terminator => .closing

/-- A `write` of the child: without a reader it is killed. -/
def write (capacity : Nat) (state : State) (data : List UInt8)
    (next : List UInt8 → State) : Option State :=
  if state.hasReader then
    (pushWhole capacity state.pipe data).map next
  else
    some { state with child := .failed }

/-- A step of `child_process`. -/
def childStep (capacity : Nat) (state : State) : Option State :=
  match state.child with
  | .start file => some { state with child := .reading file [] }
  | .reading (ch :: file) word =>
      if isDelimiter ch then
        if word.length > 0 then some { state with child := .writeLength word (.loop file) }
        else some { state with child := .reading file word }
      else if word.length ≥ maxWordLength then some { state with child := .failed }
      else some { state with child := .reading file (word ++ [ch]) }
  | .reading [] word =>
      if word.length > 0 then some { state with child := .writeLength word .lastWord }
      else some { state with child := .writeLength [] .terminator }
  | .writeLength word caller =>
      write capacity state [UInt8.ofNat word.length] fun pipe =>
        if word.length > 0 then { state with pipe := pipe, child := .writeWord word caller }
        else { state with pipe := pipe, child := afterSend caller, sent := state.sent ++ [word] }
  | .writeWord word caller =>
      write capacity state word fun pipe =>
        { state with pipe := pipe, child := afterSend caller, sent := state.sent ++ [word] }
  | .closing => some { state with child := .exited }
  | .exited => none
  | .failed => none

/-- A `read` of the parent. -/
def read (state : State) (wanted : Nat) : Option (List UInt8 × List UInt8) :=
  pullUpTo state.hasWriter state.pipe wanted

/-- A step of `parent_process`. -/
def parentStep (state : State) : Option State :=
  match state.parent with
  | .start => some { state with parent := .readLength }
  | .readLength =>
      (read state 1).map fun (got, pipe) =>
        let length := got.headD state.length
        { state with
          pipe := pipe
          length := length
          parent := if length = 0 then .closing else .readWord }
  | .readWord =>
      (read state state.length.toNat).map fun (got, pipe) =>
        { state with
          pipe := pipe
          word := got ++ state.word.drop got.length
          parent := .print }
  | .print =>
      let word := state.word.set state.length.toNat 0
      some { state with
        word := word
        printed := state.printed ++ [(state.length, cString word)]
        parent := .readLength }
  | .closing => some { state with parent := .exited }
  | .exited => none

/-- A step of either process. -/
def step (capacity : Nat) : Step State Action :=
  fun state action =>
    match action with
    | .child => childStep capacity state
    | .parent => parentStep state

end CExamples.Pipe.Simple
