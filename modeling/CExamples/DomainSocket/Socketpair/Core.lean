import CExamples.DomainSocket.Core
import CExamples.Transition.Core
import CExamples.Transition.Resources
import CExamples.Word.Split

/-!
# The two ends of a socket pair

`domain-socket/socketpair/main.c`.  The child writes each word of its file as a length
byte followed by the letters, and an empty word at the end.  The parent reads a length
and, with one more call, the word.  Both look at what their calls return only for an
error, so a short transfer goes unnoticed, and at the end of the stream the parent goes
on with what `length` held before.

A process moves at one of its calls, together with the local work that follows it.  The
bytes in the socket are marked with whether they are the length of a word, which the
program cannot see.
-/

namespace CExamples.DomainSocket.Socketpair

open CExamples.Transition
open CExamples.Word

/-- `MAX_WORD_LENGTH` -/
def maxWordLength : Nat :=
  255

/-- A byte in the socket; `heads` tells whether it is the length of a word. -/
structure Sent where
  byte : UInt8
  heads : Bool
  deriving DecidableEq, Repr

/-- Where `child_process` continues after `send_word`: in its loop, with the rest of the
file; after the word that the file ends with; or after the empty word. -/
inductive Caller
  | loop (file : List UInt8)
  | lastWord
  | terminator
  deriving DecidableEq, Repr

/-- Where the child is.  `word` holds the letters of `word[0..length)`, and `remaining`
what the `write` of the word has not transferred yet. -/
inductive Child
  /-- before `close(sockfd[1])` and `fopen` -/
  | start (file : List UInt8)
  /-- at `fgetc` -/
  | reading (file word : List UInt8)
  /-- in `write` of the length -/
  | writeLength (word : List UInt8) (caller : Caller)
  /-- in `write` of the word -/
  | writeWord (word remaining : List UInt8) (caller : Caller)
  /-- before `fclose` and `close` -/
  | closing
  | exited
  /-- after `error_exit`, or killed by SIGPIPE -/
  | failed
  deriving DecidableEq, Repr

/-- Where the parent is. -/
inductive Parent
  /-- before `close(sockfd[0])` -/
  | start
  /-- in `read` of the length -/
  | readLength
  /-- in `read` of the word -/
  | readWord
  /-- before the terminator is stored and the line printed -/
  | print
  /-- before `close` -/
  | closing
  | exited
  /-- after `error_exit` -/
  | failed
  deriving DecidableEq, Repr

/-- The two processes and the socket between them.  `length` and `word` are the variables
of the parent, and `framed` tells whether it read `length` as the length of a word. -/
structure State where
  child : Child
  parent : Parent
  socket : List Sent
  length : UInt8
  framed : Bool
  word : List UInt8
  printed : List Line
  deriving DecidableEq, Repr

/-- The process that moves, and the size of its transfer; or the process whose call does
not do all of its work. -/
inductive Action
  | child (count : Nat)
  | parent (count : Nat)
  | childFails
  | parentFails
  deriving DecidableEq, Repr

/-- The state after `fork`; the variables of the parent have no initial values. -/
def initial (length : UInt8) (word file : List UInt8) : State where
  child := .start file
  parent := .start
  socket := []
  length := length
  framed := false
  word := word
  printed := []

namespace State

/-- Some process holds the child's end of the socket open. -/
def hasWriter (state : State) : Bool :=
  state.parent = .start || !(state.child = .exited || state.child = .failed)

/-- Some process holds the parent's end of the socket open. -/
def hasReader (state : State) : Bool :=
  match state.parent, state.child with
  | .exited, .start _ => true
  | .failed, .start _ => true
  | .exited, _ => false
  | .failed, _ => false
  | _, _ => true

end State

/-! ## The child -/

/-- What the child does after `send_word`. -/
def Caller.next : Caller → Child
  | .loop file => .reading file []
  | .lastWord => .writeLength [] .terminator
  | .terminator => .closing

/-- A `write` of the child: without a reader it is killed. -/
def write (capacity : Nat) (state : State) (heads : Bool) (data : List UInt8) (count : Nat)
    (next : List UInt8 → Child) : Option State :=
  if state.hasReader then
    (push capacity state.socket (data.map fun byte => ⟨byte, heads⟩) count).map
      fun (socket, remaining) =>
        { state with socket := socket, child := next (remaining.map Sent.byte) }
  else
    some { state with child := .failed }

/-- A step of `child_process`. -/
def childStep (capacity : Nat) (state : State) (count : Nat) : Option State :=
  match state.child with
  | .start file => some { state with child := .reading file [] }
  | .reading (ch :: file) word =>
      if isDelimiter ch then
        if word.length > 0 then some { state with child := .writeLength word (.loop file) }
        else some { state with child := .reading file word }
      else if word.length ≥ maxWordLength then some { state with child := .failed }
      else some { state with child := .reading file (word ++ [ch]) }
  | .reading [] word =>
      if word.length > 0 then some { state with child := .writeLength word .lastWord }
      else some { state with child := .writeLength [] .terminator }
  | .writeLength word caller =>
      write capacity state true [UInt8.ofNat word.length] count fun _ =>
        if word.length > 0 then .writeWord word word caller else caller.next
  | .writeWord word remaining caller =>
      write capacity state false remaining count fun remaining =>
        if remaining.length > 0 then .writeWord word remaining caller else caller.next
  | .closing => some { state with child := .exited }
  | .exited => none
  | .failed => none

/-- A call of the child fails; a `write` that has transferred a part returns instead. -/
def childFails (state : State) : Option State :=
  match state.child with
  | .start _ => some { state with child := .failed }
  | .writeLength _ _ => some { state with child := .failed }
  | .writeWord word remaining caller =>
      if remaining.length < word.length then some { state with child := caller.next }
      else some { state with child := .failed }
  | .closing => some { state with child := .failed }
  | _ => none

/-! ## The parent -/

/-- A `read` of the parent: at the end of the stream it returns 0. -/
def read (state : State) (wanted count : Nat) (next : List Sent → State → State) : Option State :=
  if state.socket = [] ∧ state.hasWriter = false then
    some (next [] state)
  else
    (pull state.socket wanted count).map fun (got, socket) =>
      next got { state with socket := socket }

namespace State

/-- The parent has read `length`, or nothing. -/
def takeLength (got : List Sent) (state : State) : State :=
  let head := got.headD ⟨state.length, false⟩
  { state with
    length := head.byte
    framed := head.heads
    parent := if head.byte = 0 then .closing else .readWord }

/-- The parent has read the first bytes of `word`. -/
def takeWord (got : List Sent) (state : State) : State :=
  { state with
    word := got.map Sent.byte ++ state.word.drop got.length
    parent := .print }

/-- `word[length] = '\0'` and the line that is printed. -/
def printLine (state : State) : State :=
  let word := state.word.set state.length.toNat 0
  { state with
    word := word
    printed := state.printed ++ [(state.length, cString word)]
    parent := .readLength }

end State

/-- A step of `parent_process`. -/
def parentStep (state : State) (count : Nat) : Option State :=
  match state.parent with
  | .start => some { state with parent := .readLength }
  | .readLength => read state 1 count State.takeLength
  | .readWord => read state state.length.toNat count State.takeWord
  | .print => some state.printLine
  | .closing => some { state with parent := .exited }
  | .exited => none
  | .failed => none

/-- A `read` of the parent fails. -/
def parentFails (state : State) : Option State :=
  match state.parent with
  | .readLength => some { state with parent := .failed }
  | .readWord => some { state with parent := .failed }
  | _ => none

/-- A step of either process. -/
def step (capacity : Nat) : Step State Action :=
  fun state action =>
    match action with
    | .child count => childStep capacity state count
    | .parent count => parentStep state count
    | .childFails => childFails state
    | .parentFails => parentFails state

end CExamples.DomainSocket.Socketpair
