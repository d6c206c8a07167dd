import CExamples.OffT
import CExamples.Program.Stdio

/-!
# Seeking on a descriptor

`files/lseek/main.c`.  The program shows a file three times.  The headers are printed to
`stdout`, but the bytes of the file are written to its descriptor, past the buffer.
-/

namespace CExamples.Files.Lseek

open CExamples.Program

/-- `while(read(fd, &ch, 1) > 0) write(STDOUT_FILENO, &ch, 1);` -/
def copyPass : OpenFile × Output → Pass (OpenFile × Output) (OpenFile × Output) :=
  drain OpenFile.read fun stdout byte => stdout.write [byte]

/-- `display_file` -/
def displayFile (buffering : Buffering) (fuel : Nat) (message : String) (offset : Int64)
    (fd : OpenFile) (stdout : Output) : Option (OpenFile × Output) :=
  passes copyPass fuel (fd, stdout.print buffering (header message offset))

/-- `main` behind `open`: the bytes that have reached descriptor 1 at the exit. -/
def main (buffering : Buffering) (limit fuel : Nat) (content : List UInt8) (offset : Int64) :
    Option (List UInt8) := do
  let fd : OpenFile := { content := content, position := 0 }
  let (fd, stdout) ← displayFile buffering fuel "File contents" 0 fd .opened
  let fd := fd.lseek limit 0 .set
  let (fd, stdout) ← displayFile buffering fuel "\n\nFile contents after SEEK_SET" 0 fd stdout
  let fd := fd.lseek limit 0 .set
  let fd := fd.lseek limit offset.toInt .cur
  let (_, stdout) ← displayFile buffering fuel "\n\nFile contents after SEEK_CUR" offset fd stdout
  pure stdout.flush.written

/-- What a display of the bytes `ahead` leaves of `stdout`. -/
def displayed (buffering : Buffering) (message : String) (offset : Int64) (ahead : List UInt8)
    (stdout : Output) : Output :=
  (stdout.print buffering (header message offset)).write ahead

/-- A display writes the bytes that are ahead. -/
theorem displayFile_eq (buffering : Buffering) {fuel : Nat} (message : String) (offset : Int64)
    {fd : OpenFile} (enough : fd.ahead.length < fuel) (stdout : Output) :
    ∃ rest, displayFile buffering fuel message offset fd stdout =
        some (rest, displayed buffering message offset fd.ahead stdout) ∧
      rest.content = fd.content := by
  have drained := (OpenFile.feeds_read fd.content).passes_drain
    (fun stdout byte => Output.write stdout [byte]) rfl enough
    (stdout.print buffering (header message offset))
  rw [Output.foldl_write] at drained
  exact drained

/-- The file is shown twice, and then from where the last seek has led. -/
theorem main_eq (buffering : Buffering) (limit : Nat) {fuel : Nat} {content : List UInt8}
    (enough : content.length < fuel) (offset : Int64) :
    main buffering limit fuel content offset =
      let third := OpenFile.lseek limit { content := content, position := 0 } offset.toInt .cur
      some (displayed buffering "\n\nFile contents after SEEK_CUR" offset third.ahead
        (displayed buffering "\n\nFile contents after SEEK_SET" 0 content
          (displayed buffering "File contents" 0 content .opened))).total := by
  have few := OpenFile.length_ahead_le
    (OpenFile.lseek limit { content := content, position := 0 } offset.toInt .cur)
  rw [OpenFile.content_lseek] at few
  rcases @displayFile_eq buffering fuel "File contents" 0 { content := content, position := 0 }
    enough .opened with ⟨fd, first, firstContent⟩
  rcases @displayFile_eq buffering fuel "\n\nFile contents after SEEK_SET" 0
    { content := content, position := 0 } enough
    (displayed buffering "File contents" 0 content .opened) with ⟨fd', second, secondContent⟩
  rcases displayFile_eq buffering "\n\nFile contents after SEEK_CUR" offset
    (Nat.lt_of_le_of_lt few enough)
    (displayed buffering "\n\nFile contents after SEEK_SET" 0 content
      (displayed buffering "File contents" 0 content .opened)) with ⟨fd'', third, _⟩
  rw [OpenFile.ahead_beginning] at first second
  simp only [main, first, Option.bind_eq_bind, Option.bind_some, OpenFile.lseek_beginning,
    firstContent, second, secondContent, third, Output.written_flush]
  rfl

end CExamples.Files.Lseek
