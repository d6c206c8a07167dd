import CExamples.Word.CString
import CExamples.Word.Frame

/-!
# The domain-socket programs

`domain-socket/read-write` and `domain-socket/send-recv`.  The client sends each
word of its file as one length byte followed by the bytes of the word.  The server
reads the length byte and then, with one more call, the word; it does not look at
the result of that call.  `recv` without flags and `send` without flags are `read`
and `write`, so the two pairs of programs are one.
-/

namespace CExamples.DomainSocket

open CExamples.Word

/-! ## The client -/

/-- The bytes that the client's `main` sends for the words of its file, up to the
first one that exceeds the maximum length. -/
def sendWords : List (List UInt8) → List UInt8
  | [] => []
  | word :: words =>
      if word.length > 255 then []
      else UInt8.ofNat word.length :: (word ++ sendWords words)

/-! ## The server -/

/-- A connection: the bytes that were sent and not read, and how many bytes each of
the following calls can get at most. -/
structure Socket where
  stream : List UInt8
  offers : Nat → Nat

/-- `read(fd, ..., count)`: at least one byte while bytes remain, at most `count`. -/
def Socket.read (socket : Socket) (count : Nat) : List UInt8 × Socket :=
  let length := min (max 1 (socket.offers 0)) count
  (socket.stream.take length,
    { stream := socket.stream.drop length
      offers := fun call => socket.offers (call + 1) })

/-- A printed line: `Word Size: %u, Word: %s`. -/
abbrev Line := UInt8 × List UInt8

/-- The first byte of a stream leaves a shorter one. -/
theorem Socket.length_read_lt {socket rest : Socket} {size : UInt8} {more : List UInt8}
    (got : socket.read 1 = (size :: more, rest)) : rest.stream.length < socket.stream.length := by
  have lengthEq : min (max 1 (socket.offers 0)) 1 = 1 := by omega
  simp only [read, lengthEq, Prod.mk.injEq] at got
  obtain ⟨taken, rfl⟩ := got
  cases streamEq : socket.stream with
  | nil => simp [streamEq] at taken
  | cons first stream => simp

/-- The word buffer after a read of `size` bytes got `payload`, and the terminator. -/
def terminated (word payload : List UInt8) (size : UInt8) : List UInt8 :=
  (payload ++ word.drop payload.length).set size.toNat 0

/-- `handle_connection`: the lines that it prints.  `word` is the stack slot of the
word buffer, which keeps its contents from one round to the next. -/
def handleConnection (socket : Socket) (word : List UInt8) : List Line :=
  match _got : socket.read 1 with
  | ([], _) => []
  | (size :: _, socket') =>
      let payload := socket'.read size.toNat
      let word := terminated word payload.1 size
      (size, cString word) :: handleConnection payload.2 word
  termination_by socket.stream.length
  decreasing_by
    have shorter := Socket.length_read_lt _got
    simp only [Socket.read, List.length_drop]
    omega

/-- The line that shows a word. -/
def line (word : List UInt8) : Line :=
  (UInt8.ofNat word.length, cString word)

end CExamples.DomainSocket
