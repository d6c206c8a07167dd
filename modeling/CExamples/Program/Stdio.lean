import CExamples.Program.Passes
import Mathlib.Data.List.Basic

/-!
# Descriptors and streams

What is printed to `stdout` waits in a buffer until a newline comes or the buffer is full;
what is written to the descriptor of `stdout` passes by it.  An input stream remembers that
its file has ended, until a seek succeeds.
-/

namespace CExamples.Program

/-! ## Output -/

/-- When a stream passes on what is in its buffer. -/
inductive Mode
  | line
  | full
  deriving DecidableEq

/-- The buffer of a stream, which has at least the 256 bytes of the smallest `BUFSIZ`. -/
structure Buffering where
  mode : Mode
  capacity : Nat
  large : 256 ≤ capacity

/-- The bytes in the buffer, and the bytes that have reached the descriptor. -/
@[ext]
structure Output where
  pending : List UInt8
  written : List UInt8
  deriving DecidableEq

namespace Output

/-- Nothing is printed yet. -/
def opened : Output where
  pending := []
  written := []

/-- `fflush`, and what `exit` does to a stream. -/
def flush (output : Output) : Output where
  pending := []
  written := output.written ++ output.pending

/-- `write` to the descriptor. -/
def write (output : Output) (bytes : List UInt8) : Output :=
  { output with written := output.written ++ bytes }

/-- `putc`: at a newline, if lines are passed on, and in a buffer that is full the bytes are
flushed. -/
def put (buffering : Buffering) (output : Output) (byte : UInt8) : Output :=
  let added := { output with pending := output.pending ++ [byte] }
  if added.pending.length ≥ buffering.capacity ∨ (buffering.mode = .line ∧ byte = 10) then
    added.flush
  else added

/-- `printf` of a text. -/
def print (buffering : Buffering) (output : Output) (text : List UInt8) : Output :=
  text.foldl (put buffering) output

/-- What has reached the descriptor, and what waits in the buffer. -/
def total (output : Output) : List UInt8 :=
  output.written ++ output.pending

variable {buffering : Buffering} {output : Output}

@[simp]
theorem written_flush (output : Output) : output.flush.written = output.total :=
  rfl

theorem print_cons (byte : UInt8) (rest : List UInt8) :
    output.print buffering (byte :: rest) = (output.put buffering byte).print buffering rest :=
  rfl

theorem print_append (first second : List UInt8) :
    output.print buffering (first ++ second) =
      (output.print buffering first).print buffering second :=
  List.foldl_append

/-- Nothing that is printed gets lost or overtakes. -/
theorem total_print (output : Output) (text : List UInt8) :
    (output.print buffering text).total = output.total ++ text := by
  induction text generalizing output with
  | nil => exact (List.append_nil _).symm
  | cons byte rest ih =>
      have one : (output.put buffering byte).total = output.total ++ [byte] := by
        rw [put]
        split
        · rw [flush, total, List.append_nil, total, List.append_assoc]
        · rw [total, total, List.append_assoc]
      rw [print_cons, ih, one, List.append_assoc, List.singleton_append]

/-- Behind a newline the buffer is empty if lines are passed on. -/
theorem print_newline (lines : buffering.mode = .line) (text : List UInt8) :
    output.print buffering (text ++ [10]) =
      { pending := [], written := output.total ++ (text ++ [10]) } := by
  have sum := @total_print buffering output (text ++ [10])
  have empty : (output.print buffering (text ++ [10])).pending = [] := by
    rw [print_append]
    change (put buffering _ 10).pending = []
    rw [put, if_pos (Or.inr ⟨lines, rfl⟩)]
    rfl
  rw [total, empty, List.append_nil] at sum
  rw [← sum]
  exact Output.ext empty rfl

/-- Bytes that are written one by one. -/
theorem foldl_write (output : Output) (bytes : List UInt8) :
    bytes.foldl (fun output byte => output.write [byte]) output = output.write bytes := by
  induction bytes generalizing output with
  | nil => rw [write, List.append_nil]; rfl
  | cons byte rest ih =>
      rw [List.foldl_cons, ih, write, write, List.append_assoc]
      rfl

/-- A text that fits waits in the buffer if lines are not passed on. -/
theorem print_fits (whole : buffering.mode = .full) {text : List UInt8}
    (fits : output.pending.length + text.length < buffering.capacity) :
    output.print buffering text = { output with pending := output.pending ++ text } := by
  induction text generalizing output with
  | nil =>
      rw [List.append_nil]
      rfl
  | cons byte rest ih =>
      have stays : output.put buffering byte =
          { output with pending := output.pending ++ [byte] } := by
        apply if_neg
        rintro (full | ⟨lines, _⟩)
        · rw [List.length_append, List.length_singleton] at full
          rw [List.length_cons] at fits
          omega
        · rw [whole] at lines
          cases lines
      rw [List.length_cons] at fits
      rw [print_cons, stays, ih, List.append_assoc, List.singleton_append]
      rw [List.length_append, List.length_singleton]
      omega

end Output

/-! ## Input -/

/-- The contents of an open file, and the position of the next byte. -/
structure OpenFile where
  content : List UInt8
  position : Nat
  deriving DecidableEq

/-- From where a seek counts. -/
inductive Whence
  | set
  | cur
  deriving DecidableEq

namespace OpenFile

/-- `read(fd, &ch, 1)`: the byte, or nothing if it returns 0, and the file after it. -/
def read (file : OpenFile) : Option UInt8 × OpenFile :=
  match file.content[file.position]? with
  | some byte => (some byte, { file with position := file.position + 1 })
  | none => (none, file)

/-- A seek, if it succeeds: it may go behind the end, but not before the beginning or above
the largest position. -/
def seek (limit : Nat) (file : OpenFile) (offset : Int) (whence : Whence) : Option OpenFile :=
  let origin : Int := match whence with
    | .set => 0
    | .cur => file.position
  if 0 ≤ origin + offset ∧ origin + offset ≤ limit then
    some { file with position := (origin + offset).toNat }
  else none

/-- `lseek` where its result is not looked at. -/
def lseek (limit : Nat) (file : OpenFile) (offset : Int) (whence : Whence) : OpenFile :=
  (file.seek limit offset whence).getD file

/-- The bytes from the position on. -/
def ahead (file : OpenFile) : List UInt8 :=
  file.content.drop file.position

@[simp]
theorem ahead_beginning (content : List UInt8) :
    ahead { content := content, position := 0 } = content :=
  rfl

/-- Reads take the bytes ahead. -/
theorem feeds_read (content : List UInt8) :
    Feeds read ahead (·.content = content) (·.content = content) where
  ended := by
    intro file rest same ended
    rw [read] at ended
    split at ended
    · cases ended
    · rename_i beyond
      cases ended
      exact ⟨List.drop_eq_nil_iff.mpr (List.getElem?_eq_none_iff.mp beyond), same⟩
  taken := by
    intro file byte rest same taken
    rw [read] at taken
    split at taken
    · rename_i found
      cases taken
      rcases List.getElem?_eq_some_iff.mp found with ⟨inside, byteEq⟩
      rw [ahead, List.drop_eq_getElem_cons inside, byteEq]
      exact ⟨rfl, same⟩
    · cases taken

/-- The beginning of a file can always be sought. -/
theorem seek_beginning (limit : Nat) (file : OpenFile) :
    file.seek limit 0 .set = some { file with position := 0 } := by
  rw [seek, if_pos ⟨Int.le_refl 0, Int.natCast_nonneg limit⟩]
  rfl

theorem lseek_beginning (limit : Nat) (file : OpenFile) :
    file.lseek limit 0 .set = { file with position := 0 } := by
  rw [lseek, seek_beginning]
  rfl

@[simp]
theorem content_lseek (limit : Nat) (file : OpenFile) (offset : Int) (whence : Whence) :
    (file.lseek limit offset whence).content = file.content := by
  cases whence <;> rw [lseek, seek] <;> split <;> rfl

theorem length_ahead_le (file : OpenFile) : file.ahead.length ≤ file.content.length := by
  rw [ahead, List.length_drop]
  exact Nat.sub_le _ _

end OpenFile

/-- A `FILE` that is read from: its file, and whether its end was met. -/
structure InputStream where
  file : OpenFile
  eof : Bool
  deriving DecidableEq

namespace InputStream

/-- `fread(&ch, 1, 1, file)`: the byte, or nothing if it returns 0, and the stream after
it. -/
def fread (stream : InputStream) : Option UInt8 × InputStream :=
  if stream.eof then (none, stream)
  else
    match stream.file.read with
    | (some byte, file) => (some byte, { stream with file := file })
    | (none, file) => (none, { file := file, eof := true })

/-- `fseeko` where its result is not looked at. -/
def fseeko (limit : Nat) (stream : InputStream) (offset : Int) (whence : Whence) : InputStream :=
  match stream.file.seek limit offset whence with
  | some file => { file := file, eof := false }
  | none => stream

/-- Reads take the bytes ahead of a stream whose end was not met. -/
theorem feeds_fread (content : List UInt8) :
    Feeds fread (·.file.ahead) (fun stream => stream.eof = false ∧ stream.file.content = content)
      (·.file.content = content) where
  ended := by
    intro stream rest before ended
    rw [fread, if_neg (Bool.eq_false_iff.mp before.1)] at ended
    split at ended
    · cases ended
    · rename_i file none
      cases ended
      exact (OpenFile.feeds_read content).ended stream.file file before.2 none
  taken := by
    intro stream byte rest before taken
    rw [fread, if_neg (Bool.eq_false_iff.mp before.1)] at taken
    split at taken
    · rename_i file some
      cases taken
      have fed := (OpenFile.feeds_read content).taken stream.file byte file before.2 some
      exact ⟨fed.1, before.1, fed.2⟩
    · cases taken

/-- A stream of which the end was not met is sought like its file. -/
theorem fseeko_eq (limit : Nat) {stream : InputStream} (open_ : stream.eof = false) (offset : Int)
    (whence : Whence) :
    stream.fseeko limit offset whence =
      { file := stream.file.lseek limit offset whence, eof := false } := by
  rw [fseeko, OpenFile.lseek]
  cases stream.file.seek limit offset whence with
  | some file => rfl
  | none =>
      rw [← open_]
      rfl

/-- After a seek to the beginning the end is no longer met. -/
theorem fseeko_beginning (limit : Nat) (stream : InputStream) :
    stream.fseeko limit 0 .set =
      { file := { stream.file with position := 0 }, eof := false } := by
  rw [fseeko, OpenFile.seek_beginning]

end InputStream

end CExamples.Program
