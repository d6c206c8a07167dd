import CExamples.Program.Source

/-!
# Five loops that echo a stream

`streams/fgetc-fputc/main.c`, `streams/fread-fwrite/main.c`,
`streams/fgets-fputs/main.c`, `streams/feof/main.c` and `files/fdopen/main.c`.  Each
reads a stream piece by piece, by bytes, blocks or lines, and prints every piece behind
a prompt.  The loops end where a read hands out nothing, only that of `feof` goes on
until the end was met, which an error never is.

A line is printed as a string.  So the bytes behind a zero byte of a line are lost, and
with an error those of the line in which it comes.
-/

namespace CExamples.Streams.Echo

open CExamples.Program
open CExamples.Word

/-- What a program prints before the first piece, around each one and behind the last. -/
structure Frame where
  greeting : String
  prompt : String
  behind : String
  ending : String

namespace Frame

/-- What was printed, after one more piece. -/
def emit (frame : Frame) (printed piece : List UInt8) : List UInt8 :=
  printed ++ (ascii frame.prompt ++ piece ++ ascii frame.behind)

/-- Everything that is printed. -/
def around (frame : Frame) (pieces : List (List UInt8)) : List UInt8 :=
  pieces.foldl frame.emit (ascii frame.greeting) ++ ascii frame.ending

end Frame

variable {β : Type}

/-- The loop that prints what `next` hands out, with at most `fuel` passes. -/
def echo (frame : Frame) (next : Source → Option β × Source) (text : β → List UInt8)
    (fuel : Nat) (stdin : Source) : Option (List UInt8) :=
  (passes (drain next fun printed item => frame.emit printed (text item)) fuel
    (stdin, ascii frame.greeting)).map fun after => after.2 ++ ascii frame.ending

/-- The loop that looks for the end of the stream before each read. -/
def echoUntil (frame : Frame) (next : Source → Option β × Source) (text : β → List UInt8)
    (fuel : Nat) (stdin : Source) : Option (List UInt8) :=
  (passes (drainUntil Source.eof next fun printed item => frame.emit printed (text item)) fuel
    (stdin, ascii frame.greeting)).map fun after => after.2 ++ ascii frame.ending

/-! ## The programs -/

/-- `BUFFER_SIZE` of the streams, `BUFFER_LEN` of `files/fdopen/main.c` -/
def bufferSize : Nat :=
  256

def fgetcFrame : Frame where
  greeting := "Please input some text, end with Ctrl-D:\n"
  prompt := "you typed: "
  behind := "\n"
  ending := ""

/-- `main` of `streams/fgetc-fputc/main.c`. -/
def fgetcFputc : Nat → Source → Option (List UInt8) :=
  echo fgetcFrame Source.fgetc fun ch => [ch]

def freadFrame : Frame where
  greeting := "Enter some text (press Ctrl+D to stop):\n"
  prompt := "You typed: "
  behind := ""
  ending := ""

/-- `main` of `streams/fread-fwrite/main.c`. -/
def freadFwrite : Nat → Source → Option (List UInt8) :=
  echo freadFrame (Source.fread (bufferSize - 1)) id

def fgetsFrame : Frame where
  greeting := "Please input some lines, end with Ctrl-D:\n"
  prompt := "You typed: "
  behind := ""
  ending := ""

/-- `main` of `streams/fgets-fputs/main.c`. -/
def fgetsFputs : Nat → Source → Option (List UInt8) :=
  echo fgetsFrame (Source.fgets bufferSize) cString

def fdopenFrame : Frame where
  greeting := ""
  prompt := ""
  behind := ""
  ending := ""

/-- `main` of `files/fdopen/main.c` behind `fdopen`. -/
def fdopen : Nat → Source → Option (List UInt8) :=
  echo fdopenFrame (Source.fgets bufferSize) cString

def feofFrame : Frame where
  greeting := "Enter some text (press Ctrl+D to stop):\n"
  prompt := "You entered: "
  behind := ""
  ending := "\nReached the end of input.\n"

/-- `main` of `streams/feof/main.c`. -/
def feof : Nat → Source → Option (List UInt8) :=
  echoUntil feofFrame (Source.fgets bufferSize) cString

/-- The program ends and has printed the pieces, which are the `bytes` exactly if
`exactly` holds. -/
structure Echoes (main : Nat → Option (List UInt8)) (frame : Frame)
    (pieces : List (List UInt8)) (bytes : List UInt8) (exactly : Prop) : Prop where
  prints : ∃ fuel, main fuel = some (frame.around pieces)
  exact_iff : pieces.flatten = bytes ↔ exactly

/-- Every line of `fgets` is printed up to its end. -/
def Printable (stdin : Source) : Prop :=
  0 ∉ stdin.bytes ∧
    (stdin.fails = true → ∀ line ∈ lines bufferSize stdin.bytes, Complete (bufferSize - 1) line)

/-! ## The loops -/

section Loops

variable {frame : Frame} {next : Source → Option β × Source} {text : β → List UInt8}
  {ahead : Source → List β} {inv closed : Source → Prop}

/-- A loop around the reads prints all pieces. -/
theorem echo_eq (feeds : Feeds next ahead inv closed) {stdin : Source} (initial : inv stdin) :
    ∃ fuel, echo frame next text fuel stdin = some (frame.around ((ahead stdin).map text)) := by
  rcases feeds.passes_drain (fun printed item => frame.emit printed (text item)) initial
    (Nat.lt_succ_self _) (ascii frame.greeting) with ⟨rest, run, _⟩
  refine ⟨(ahead stdin).length + 1, ?_⟩
  rw [echo, run, Frame.around, List.foldl_map]
  rfl

/-- So does a loop that is told of the end. -/
theorem echoUntil_eq (feeds : Feeds next ahead inv closed)
    (raised : ∀ source, closed source → source.eof = true)
    (last : ∀ source, inv source → source.eof = true → ahead source = []) {stdin : Source}
    (initial : inv stdin) :
    ∃ fuel, echoUntil frame next text fuel stdin =
      some (frame.around ((ahead stdin).map text)) := by
  rcases feeds.leaves_drainUntil raised last (fun printed item => frame.emit printed (text item))
    initial (ascii frame.greeting) with ⟨rest, fuel, run⟩
  refine ⟨fuel, ?_⟩
  rw [echoUntil, run, Frame.around, List.foldl_map]
  rfl

end Loops

/-- An error keeps the loop of `feof` going. -/
theorem feof_eq_none {stdin : Source} (fails : stdin.fails = true) (fresh : stdin.eof = false)
    (fuel : Nat) : feof fuel stdin = none := by
  have endless (result : Source × List UInt8) :
      ¬Leaves (drainUntil Source.eof (Source.fgets bufferSize) fun printed line =>
        feofFrame.emit printed (cString line)) (stdin, ascii feofFrame.greeting) result := by
    refine @not_leaves _ _ _ (fun state => state.1.fails = true ∧ state.1.eof = false) ?_ _
      ⟨fails, fresh⟩ result
    rintro ⟨source, printed⟩ ⟨fails, down⟩
    have after : (source.fgets bufferSize).2.fails = true ∧
        (source.fgets bufferSize).2.eof = false :=
      ⟨(Source.fails_fgets _ _).trans fails, (Source.eof_fgets_of_fails fails).trans down⟩
    have goes : ¬source.eof = true := by simpa using down
    rcases result : source.fgets bufferSize with ⟨_ | line, rest⟩
    · rw [result] at after
      exact ⟨(rest, printed), by simp only [drainUntil, if_neg goes, result], after⟩
    · rw [result] at after
      exact ⟨(rest, feofFrame.emit printed (cString line)),
        by simp only [drainUntil, if_neg goes, result], after⟩
  rw [feof, echoUntil, Option.map_eq_none_iff]
  cases run : passes (drainUntil Source.eof (Source.fgets bufferSize) fun printed line =>
      feofFrame.emit printed (cString line)) fuel (stdin, ascii feofFrame.greeting) with
  | none => rfl
  | some result => exact absurd ⟨fuel, run⟩ (endless result)

/-- What the five programs print of a stream. -/
structure Echoed (stdin : Source) : Prop where
  fgetcFputc : Echoes (Echo.fgetcFputc · stdin) fgetcFrame (stdin.bytes.map fun ch => [ch])
    stdin.bytes True
  freadFwrite : Echoes (Echo.freadFwrite · stdin) freadFrame
    (Source.blocks (bufferSize - 1) stdin.bytes) stdin.bytes True
  fgetsFputs : Echoes (Echo.fgetsFputs · stdin) fgetsFrame
    ((stdin.gets bufferSize).map cString) stdin.bytes (Printable stdin)
  fdopen : Echoes (Echo.fdopen · stdin) fdopenFrame
    ((stdin.gets bufferSize).map cString) stdin.bytes (Printable stdin)
  feof : stdin.fails = false → Echoes (Echo.feof · stdin) feofFrame
    ((stdin.gets bufferSize).map cString) stdin.bytes (0 ∉ stdin.bytes)
  /-- With an error the loop of `feof` never ends. -/
  feof_endless : stdin.fails = true → ∀ fuel, Echo.feof fuel stdin = none

theorem streams_echo {stdin : Source} (fresh : stdin.eof = false) : Echoed stdin := by
  have large : 1 < bufferSize := by decide
  have kept : stdin.eof = true → stdin.bytes = [] := fun eof => by
    rw [fresh] at eof
    cases eof
  have lineBytes := Source.flatten_gets_eq_iff large stdin
  constructor
  · refine ⟨echo_eq Source.feeds_fgetc trivial, ?_⟩
    rw [iff_true]
    induction stdin.bytes with
    | nil => rfl
    | cons ch rest ih => rw [List.map_cons, List.flatten_cons, ih, List.singleton_append]
  · constructor
    · have feeds : Feeds (Source.fread (bufferSize - 1)) _ _ _ := Source.feeds_fread (by decide)
      have run := @echo_eq _ freadFrame _ id _ _ _ feeds stdin trivial
      rwa [List.map_id] at run
    · rw [iff_true]
      exact Source.flatten_blocks (by decide) stdin.bytes
  · exact ⟨echo_eq (Source.feeds_fgets large) kept, lineBytes⟩
  · exact ⟨echo_eq (Source.feeds_fgets large) kept, lineBytes⟩
  · intro fine
    constructor
    · exact echoUntil_eq (Source.feeds_fgets_of_ends large) (fun _ => id)
        (fun source before eof => Source.gets_of_nil (before.2 eof)) ⟨fine, kept⟩
    · refine lineBytes.trans ?_
      simp [fine]
  · exact fun fails => feof_eq_none fails fresh

/-- A line, and a zero byte in the line in which an error comes. -/
theorem brokenLine_echo : Echoed { bytes := [97, 10, 98, 0, 99], fails := true, eof := false } :=
  streams_echo rfl

end CExamples.Streams.Echo
