import CExamples.Transition.Core
import CExamples.Transition.Resources
import CExamples.Word.CString
import CExamples.Word.Frame
import CExamples.Word.Split

/-!
# The reliable pipe

`pipe/reliable/main.c`.  The child reads words from a file and sends each as a
frame through a pipe; the parent prints them.  After a frame the child posts
`sem_parent` and waits for `sem_child`; the parent waits and posts the other way
round.  The end of the file is sent as a frame of length zero, after which the
parent does not post.

A process moves at one of its calls, together with the local work that follows
it.  An action names the process and the number of bytes that a `read` or a
`write` transfers.  A store of the terminator behind the end of a word buffer is
noted, and the run goes on.
-/

namespace CExamples.Pipe.Reliable

open CExamples.Transition
open CExamples.Word

/-- `MAX_WORD_LENGTH` -/
def maxWordLength : Nat :=
  255

/-- A printed line: `Parent: received word of length %u: %s`. -/
abbrev Line := UInt8 × List UInt8

/-- Where `child_process` continues after `send_word`: in its loop, with the rest
of the file; after the word that the file ends with; or after the terminator. -/
inductive Caller
  | loop (file : List UInt8)
  | lastWord
  | terminator
  deriving DecidableEq, Repr

/-- Where the child is.  `word` holds the letters of `word[0..length)`, and
`remaining` what `write_fully` has not written yet. -/
inductive Child
  /-- before `close(pipefd[0])` -/
  | start (file : List UInt8)
  /-- at `fgetc` -/
  | reading (file word : List UInt8)
  /-- in `write_fully` of the length -/
  | writeLength (word : List UInt8) (caller : Caller)
  /-- in `write_fully` of the word -/
  | writeWord (word remaining : List UInt8) (caller : Caller)
  /-- before `sem_post(sem_parent)` -/
  | post (word : List UInt8) (caller : Caller)
  /-- in `sem_wait(sem_child)` -/
  | wait (caller : Caller)
  /-- before `fclose` and `close(pipefd[1])` -/
  | closing
  | exited
  /-- after `error_exit`, or killed by SIGPIPE -/
  | failed
  deriving DecidableEq, Repr

/-- Where the parent is.  `got` holds what `read_fully` has read of the word. -/
inductive Parent
  /-- before `close(pipefd[1])` -/
  | start
  /-- in `sem_wait(sem_parent)` -/
  | wait
  /-- in `read_fully` of the length -/
  | readLength
  /-- in `read_fully` of the word -/
  | readWord (length : UInt8) (got : List UInt8)
  /-- before the terminator is stored and the line printed -/
  | print (length : UInt8) (word : List UInt8)
  /-- before `sem_post(sem_child)` -/
  | post
  /-- before `close(pipefd[0])` -/
  | closing
  | exited
  deriving DecidableEq, Repr

/-- The two processes and what they share.  `stray` tells whether a terminator
was stored outside a word buffer. -/
structure State where
  child : Child
  parent : Parent
  pipe : List UInt8
  semParent : Nat
  semChild : Nat
  printed : List Line
  stray : Bool
  deriving DecidableEq, Repr

/-- The process that moves and the size of its transfer. -/
inductive Action
  | child (count : Nat)
  | parent (count : Nat)
  deriving DecidableEq, Repr

/-- The state after `fork`. -/
def initial (semParent semChild : Nat) (file : List UInt8) : State where
  child := .start file
  parent := .start
  pipe := []
  semParent := semParent
  semChild := semChild
  printed := []
  stray := false

namespace State

/-- Some process holds the write end of the pipe open. -/
def hasWriter (state : State) : Bool :=
  state.parent = .start || !(state.child = .exited || state.child = .failed)

/-- Some process holds the read end of the pipe open. -/
def hasReader (state : State) : Bool :=
  match state.parent, state.child with
  | .exited, .start _ => true
  | .exited, _ => false
  | _, _ => true

/-- `word[length] = '\0'` -/
def terminate (state : State) (length : Nat) : State :=
  { state with stray := state.stray || length ≥ maxWordLength }

/-- The child terminates its word and calls `send_word`. -/
def sendWord (state : State) (word : List UInt8) (caller : Caller) : State :=
  { state.terminate word.length with child := .writeLength word caller }

@[simp]
theorem child_sendWord (state : State) (word : List UInt8) (caller : Caller) :
    (state.sendWord word caller).child = .writeLength word caller :=
  rfl

end State

/-- A `write` of the child: without a reader it is killed. -/
def write (capacity : Nat) (state : State) (data : List UInt8) (count : Nat)
    (next : List UInt8 → Child) : Option State :=
  if state.hasReader then
    (push capacity state.pipe data count).map fun (pipe, remaining) =>
      { state with pipe := pipe, child := next remaining }
  else
    some { state with child := .failed }

/-- A step of `child_process`. -/
def childStep (capacity : Nat) (state : State) (count : Nat) : Option State :=
  match state.child with
  | .start file => some { state with child := .reading file [] }
  | .reading (ch :: file) word =>
      if isDelimiter ch then
        if word.length > 0 then some (state.sendWord word (.loop file))
        else some { state with child := .reading file word }
      else if word.length ≥ maxWordLength then some { state with child := .failed }
      else some { state with child := .reading file (word ++ [ch]) }
  | .reading [] word =>
      if word.length > 0 then some (state.sendWord word .lastWord)
      else some { state with child := .writeLength [] .terminator }
  | .writeLength word caller =>
      write capacity state [UInt8.ofNat word.length] count fun _ =>
        if word.length > 0 then .writeWord word word caller else .post word caller
  | .writeWord word remaining caller =>
      write capacity state remaining count fun remaining =>
        if remaining.length > 0 then .writeWord word remaining caller else .post word caller
  | .post _ caller => some { state with semParent := state.semParent + 1, child := .wait caller }
  | .wait caller =>
      (semWait state.semChild).map fun semChild =>
        { state with
          semChild := semChild
          child :=
            match caller with
            | .loop file => .reading file []
            | .lastWord => .writeLength [] .terminator
            | .terminator => .closing }
  | .closing => some { state with child := .exited }
  | .exited => none
  | .failed => none

/-- A `read` of the parent: at the end of the pipe it returns 0, and
`read_fully` tries again. -/
def read (state : State) (wanted count : Nat) (next : List UInt8 → Parent) : Option State :=
  if state.pipe = [] ∧ state.hasWriter = false then
    some state
  else
    (pull state.pipe wanted count).map fun (got, pipe) =>
      { state with pipe := pipe, parent := next got }

/-- A step of `parent_process`. -/
def parentStep (state : State) (count : Nat) : Option State :=
  match state.parent with
  | .start => some { state with parent := .wait }
  | .wait =>
      (semWait state.semParent).map fun semParent =>
        { state with semParent := semParent, parent := .readLength }
  | .readLength =>
      read state 1 count fun got =>
        let length := got.headD 0
        if length = 0 then .closing else .readWord length []
  | .readWord length got =>
      read state (length.toNat - got.length) count fun more =>
        if (got ++ more).length < length.toNat then .readWord length (got ++ more)
        else .print length (got ++ more)
  | .print length word =>
      some { state.terminate length.toNat with
        printed := state.printed ++ [(length, cString word)]
        parent := .post }
  | .post => some { state with semChild := state.semChild + 1, parent := .wait }
  | .closing => some { state with parent := .exited }
  | .exited => none

/-- A step of either process. -/
def step (capacity : Nat) : Step State Action :=
  fun state action =>
    match action with
    | .child count => childStep capacity state count
    | .parent count => parentStep state count

end CExamples.Pipe.Reliable
