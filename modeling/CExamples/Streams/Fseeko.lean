import CExamples.OffT
import CExamples.Program.Stdio

/-!
# Seeking on a stream

`streams/fseeko/main.c`.  The program shows a file three times.  It prints the headers and
the bytes of the file to `stdout`, so that everything passes through one buffer.
-/

namespace CExamples.Streams.Fseeko

open CExamples.Program

/-- `while(fread(&ch, sizeof(ch), 1, file) > 0) printf("%c", ch);` -/
def copyPass (buffering : Buffering) :
    InputStream × Output → Pass (InputStream × Output) (InputStream × Output) :=
  drain InputStream.fread fun stdout byte => stdout.print buffering [byte]

/-- `display_file` -/
def displayFile (buffering : Buffering) (fuel : Nat) (message : String) (offset : Int64)
    (file : InputStream) (stdout : Output) : Option (InputStream × Output) :=
  passes (copyPass buffering) fuel (file, stdout.print buffering (header message offset))

/-- `main` behind `fopen`: the bytes that have reached descriptor 1 at the exit. -/
def main (buffering : Buffering) (limit fuel : Nat) (content : List UInt8) (offset : Int64) :
    Option (List UInt8) := do
  let file : InputStream := { file := { content := content, position := 0 }, eof := false }
  let (file, stdout) ← displayFile buffering fuel "File contents" 0 file .opened
  let file := file.fseeko limit 0 .set
  let (file, stdout) ← displayFile buffering fuel "\n\nFile contents after SEEK_SET" 0 file stdout
  let file := file.fseeko limit 0 .set
  let file := file.fseeko limit offset.toInt .cur
  let (_, stdout) ← displayFile buffering fuel "\n\nFile contents after SEEK_CUR" offset file stdout
  pure stdout.flush.written

/-- A display prints the bytes that are ahead. -/
theorem displayFile_total (buffering : Buffering) {fuel : Nat} (message : String) (offset : Int64)
    {file : InputStream} (open_ : file.eof = false) (enough : file.file.ahead.length < fuel)
    (stdout : Output) :
    ∃ rest after, displayFile buffering fuel message offset file stdout = some (rest, after) ∧
      after.total = stdout.total ++ header message offset ++ file.file.ahead ∧
      rest.file.content = file.file.content := by
  rcases (InputStream.feeds_fread file.file.content).passes_drain
    (fun stdout byte => Output.print buffering stdout [byte]) ⟨open_, rfl⟩ enough
    (stdout.print buffering (header message offset)) with ⟨rest, drained, same⟩
  refine ⟨rest, _, drained, ?_, same⟩
  have together : (file.file.ahead.foldl (fun stdout byte => Output.print buffering stdout [byte])
      (stdout.print buffering (header message offset))) =
        (stdout.print buffering (header message offset)).print buffering file.file.ahead := rfl
  rw [together, Output.total_print, Output.total_print]

/-- The headers and the bytes of the file come out in the order in which they are printed. -/
theorem main_eq (buffering : Buffering) (limit : Nat) {fuel : Nat} {content : List UInt8}
    (enough : content.length < fuel) (offset : Int64) :
    main buffering limit fuel content offset =
      let third := OpenFile.lseek limit { content := content, position := 0 } offset.toInt .cur
      some (header "File contents" 0 ++ content ++
        header "\n\nFile contents after SEEK_SET" 0 ++ content ++
        header "\n\nFile contents after SEEK_CUR" offset ++ third.ahead) := by
  have few := OpenFile.length_ahead_le
    (OpenFile.lseek limit { content := content, position := 0 } offset.toInt .cur)
  rw [OpenFile.content_lseek] at few
  rcases @displayFile_total buffering fuel "File contents" 0
    { file := { content := content, position := 0 }, eof := false } rfl enough .opened with
    ⟨file, stdout, first, firstTotal, firstContent⟩
  rcases @displayFile_total buffering fuel "\n\nFile contents after SEEK_SET" 0
    { file := { content := content, position := 0 }, eof := false } rfl enough stdout with
    ⟨file', stdout', second, secondTotal, secondContent⟩
  rcases @displayFile_total buffering fuel "\n\nFile contents after SEEK_CUR" offset
    { file := OpenFile.lseek limit { content := content, position := 0 } offset.toInt .cur,
      eof := false } rfl (Nat.lt_of_le_of_lt few enough) stdout' with
    ⟨file'', stdout'', third, thirdTotal, _⟩
  have sought := @InputStream.fseeko_eq limit
    { file := { content := content, position := 0 }, eof := false } rfl offset.toInt .cur
  rw [secondTotal, firstTotal] at thirdTotal
  simp only [main, first, Option.bind_eq_bind, Option.bind_some, InputStream.fseeko_beginning,
    firstContent, second, secondContent, sought, third,
    Output.written_flush, thirdTotal]
  rfl

end CExamples.Streams.Fseeko
