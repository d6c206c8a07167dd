import CExamples.Files.Lseek
import CExamples.Streams.Fseeko

/-!
# Two programs that seek

`files/lseek/main.c` and `streams/fseeko/main.c` are to show the same.  If `stdout` is line
buffered every header has left the buffer before the first byte of the file is written, and
they do.  If it is fully buffered the headers of `files/lseek` come out at the exit, behind
all bytes of the file.
-/

namespace CExamples.SeekDemos

open CExamples.Program
open CExamples.Word

/-- Where the third seek leaves the file. -/
def thirdSeek (limit : Nat) (content : List UInt8) (offset : Int64) : OpenFile :=
  OpenFile.lseek limit { content := content, position := 0 } offset.toInt .cur

/-- The headers, each in front of what it announces. -/
def announced (limit : Nat) (content : List UInt8) (offset : Int64) : List UInt8 :=
  header "File contents" 0 ++ content ++
    header "\n\nFile contents after SEEK_SET" 0 ++ content ++
    header "\n\nFile contents after SEEK_CUR" offset ++ (thirdSeek limit content offset).ahead

/-- For the offset that is accepted both programs end and have shown the same, namely every
header in front of its part of the file. -/
def ShowSame (buffering : Buffering) (limit : Nat) (content : List UInt8) (filePath str : Text) :
    Prop :=
  ∀ offset fuel, handleOffset (some filePath) (some str) = .ok offset → content.length < fuel →
    Files.Lseek.main buffering limit fuel content offset = some (announced limit content offset) ∧
      Streams.Fseeko.main buffering limit fuel content offset =
        some (announced limit content offset)

/-! ## The order of the bytes -/

section Order

variable {first second third file rest more : List UInt8} {initial other : UInt8}
  {tail : List UInt8}

/-- A file that is a part of the first header only begins like it. -/
theorem not_shorter (firstEq : first = initial :: tail) (once : initial ∉ tail)
    (nonempty : file ≠ []) {next : UInt8} {others left right : List UInt8}
    (longer : first = file ++ next :: others) : file ++ left ≠ next :: right := by
  intro same
  rw [firstEq] at longer
  cases file with
  | nil => exact nonempty rfl
  | cons byte bytes =>
      have begins := (List.cons_eq_cons.mp longer).1
      have tailEq := (List.cons_eq_cons.mp longer).2
      have again := (List.cons_eq_cons.mp same).1
      apply once
      rw [begins, again, tailEq]
      exact List.mem_append_right bytes List.mem_cons_self

/-- A file that begins with the first header is that header. -/
theorem not_longer (firstEq : first = initial :: tail) (secondHead : second.head? = some other)
    (differs : initial ≠ other) (fileEq : file = first ++ more)
    (same : file ++ file ++ rest ++ first ++ second ++ third =
      first ++ file ++ second ++ file ++ third ++ rest) :
    more = [] ∧ rest ++ first ++ second ++ third = second ++ first ++ third ++ rest := by
  have inner : more ++ first ++ (more ++ (rest ++ (first ++ (second ++ third)))) =
      first ++ more ++ (second ++ (first ++ (more ++ (third ++ rest)))) := by
    simpa only [fileEq, List.append_assoc, List.append_cancel_left_eq] using same
  have lengths : (more ++ first).length = (first ++ more).length := by
    rw [List.length_append, List.length_append, Nat.add_comm]
  rcases List.append_inj inner lengths with ⟨commute, later⟩
  cases more with
  | nil =>
      refine ⟨rfl, ?_⟩
      simpa only [List.nil_append, List.append_assoc] using later
  | cons byte bytes =>
      rw [firstEq] at commute
      have begins := (List.cons_eq_cons.mp commute).1
      rcases List.head?_eq_some_iff.mp secondHead with ⟨others, secondEq⟩
      rw [secondEq] at later
      have follows := (List.cons_eq_cons.mp later).1
      exact absurd (begins.symm.trans follows) differs

/-- The file cannot come first twice where the headers are expected, if the first header
begins with a byte that is not in it again, the second with another, and the first header
itself is not a file for which it can. -/
theorem headers_late (firstEq : first = initial :: tail) (once : initial ∉ tail)
    (secondHead : second.head? = some other) (differs : initial ≠ other) (nonempty : file ≠ [])
    (notFirst : file = first → rest ++ first ++ second ++ third ≠ second ++ first ++ third ++ rest) :
    file ++ file ++ rest ++ first ++ second ++ third ≠
      first ++ file ++ second ++ file ++ third ++ rest := by
  intro same
  have impossible {more : List UInt8} (fileEq : file = first ++ more) : False := by
    rcases not_longer firstEq secondHead differs fileEq same with ⟨rfl, swapped⟩
    exact notFirst (fileEq.trans (List.append_nil first)) swapped
  have split := same
  simp only [List.append_assoc] at split
  rcases List.append_eq_append_iff.mp split with ⟨more, firstMore, left⟩ | ⟨more, fileMore, _⟩
  · cases more with
    | nil =>
        rw [List.append_nil] at firstMore
        exact @impossible [] (by rw [List.append_nil, firstMore])
    | cons next others => exact not_shorter firstEq once nonempty firstMore left
  · exact impossible fileMore

end Order

/-! ## The headers -/

/-- The first header shows none of its bytes twice in a row with the second. -/
theorem firstHeader_notFirst (place : Nat) (third : List UInt8) :
    (header "File contents" 0).drop place ++ header "File contents" 0 ++
        header "\n\nFile contents after SEEK_SET" 0 ++ third ≠
      header "\n\nFile contents after SEEK_SET" 0 ++ header "File contents" 0 ++ third ++
        (header "File contents" 0).drop place := by
  intro same
  have begins := congrArg (List.take 17) same
  have short : 17 ≤ ((header "File contents" 0).drop place ++ header "File contents" 0).length := by
    have length : (header "File contents" 0).length = 18 := by decide
    rw [List.length_append, length]
    omega
  have shortSecond : 17 ≤ (header "\n\nFile contents after SEEK_SET" 0).length := by decide
  rw [List.append_assoc _ _ third, List.take_append_of_le_length short, List.append_assoc,
    List.append_assoc, List.take_append_of_le_length shortSecond] at begins
  rcases Nat.lt_or_ge place 18 with inside | behind
  · have differ : ∀ place : Fin 18, ((header "File contents" 0).drop place ++
        header "File contents" 0).take 17 ≠
          (header "\n\nFile contents after SEEK_SET" 0).take 17 := by decide
    exact differ ⟨place, inside⟩ begins
  · have none : (header "File contents" 0).drop place = [] :=
      List.drop_eq_nil_iff.mpr behind
    rw [none] at begins
    exact absurd begins (by decide)

/-! ## The two programs -/

section Programs

variable {buffering : Buffering} {limit fuel : Nat} {content : List UInt8} {offset : Int64}

theorem fseeko_shows (buffering : Buffering) (limit : Nat) (enough : content.length < fuel)
    (offset : Int64) :
    Streams.Fseeko.main buffering limit fuel content offset =
      some (announced limit content offset) :=
  Streams.Fseeko.main_eq buffering limit enough offset

/-- A display when lines are passed on. -/
theorem displayed_line (lines : buffering.mode = .line) (message : String) (offset : Int64)
    (ahead : List UInt8) (stdout : Output) :
    Files.Lseek.displayed buffering message offset ahead stdout =
      { pending := [], written := stdout.total ++ header message offset ++ ahead } := by
  rw [Files.Lseek.displayed, header_eq, Output.print_newline lines]
  rfl

/-- A display when the header fits into the buffer. -/
theorem displayed_full (whole : buffering.mode = .full) {message : String} {offset : Int64}
    {ahead pending written : List UInt8}
    (fits : pending.length + (header message offset).length < buffering.capacity) :
    Files.Lseek.displayed buffering message offset ahead
        { pending := pending, written := written } =
      { pending := pending ++ header message offset, written := written ++ ahead } := by
  rw [Files.Lseek.displayed, Output.print_fits whole fits]
  rfl

/-- Line by line the headers come out in front of the file. -/
theorem lseek_shows_line (lines : buffering.mode = .line) (limit : Nat)
    (enough : content.length < fuel) (offset : Int64) :
    Files.Lseek.main buffering limit fuel content offset =
      some (announced limit content offset) := by
  rw [Files.Lseek.main_eq buffering limit enough]
  simp only [displayed_line lines, Output.total, Output.opened, List.append_nil, List.nil_append]
  rfl

/-- In a full buffer the headers wait for the exit. -/
theorem lseek_shows_full (whole : buffering.mode = .full) (limit : Nat)
    (enough : content.length < fuel) (offset : Int64) :
    Files.Lseek.main buffering limit fuel content offset =
      some (content ++ content ++ (thirdSeek limit content offset).ahead ++
        header "File contents" 0 ++ header "\n\nFile contents after SEEK_SET" 0 ++
        header "\n\nFile contents after SEEK_CUR" offset) := by
  have large := buffering.large
  have first : (header "File contents" 0).length = 18 := by decide
  have second : (header "\n\nFile contents after SEEK_SET" 0).length = 35 := by decide
  have third := length_header_le "\n\nFile contents after SEEK_CUR" offset
  have message : (ascii "\n\nFile contents after SEEK_CUR").length = 30 := by decide
  have shown : Files.Lseek.displayed buffering "File contents" 0 content .opened =
      { pending := header "File contents" 0, written := content } :=
    displayed_full whole (by rw [List.length_nil]; omega)
  have again := @displayed_full buffering whole "\n\nFile contents after SEEK_SET" 0 content
    (header "File contents" 0) content (by omega)
  have last (ahead : List UInt8) := @displayed_full buffering whole
    "\n\nFile contents after SEEK_CUR" offset ahead
    (header "File contents" 0 ++ header "\n\nFile contents after SEEK_SET" 0)
    (content ++ content) (by rw [List.length_append]; omega)
  rw [Files.Lseek.main_eq buffering limit enough]
  simp only [shown, again, last, Output.total, List.append_assoc]
  rfl

/-- The bytes from a position on. -/
theorem thirdSeek_ahead (limit : Nat) (content : List UInt8) (offset : Int64) :
    (thirdSeek limit content offset).ahead =
      content.drop (thirdSeek limit content offset).position := by
  rw [OpenFile.ahead, thirdSeek, OpenFile.content_lseek]

/-- Fully buffered, the headers come out too late for every file that is not empty. -/
theorem full_announces_iff (whole : buffering.mode = .full) (limit : Nat)
    (enough : content.length < fuel) (offset : Int64) :
    Files.Lseek.main buffering limit fuel content offset =
        some (announced limit content offset) ↔ content = [] := by
  rw [lseek_shows_full whole limit enough, Option.some_inj, announced]
  have firstEq : header "File contents" 0 = 70 :: ascii "ile contents 0:\n\n" := by decide
  have once : (70 : UInt8) ∉ ascii "ile contents 0:\n\n" := by decide
  have secondHead : (header "\n\nFile contents after SEEK_SET" 0).head? = some 10 := by decide
  constructor
  · intro same
    apply not_not.mp
    intro nonempty
    apply headers_late firstEq once secondHead (by decide) nonempty _ same
    intro isFirst
    rw [thirdSeek_ahead, isFirst]
    exact firstHeader_notFirst _ _
  · rintro rfl
    simp only [thirdSeek_ahead, List.drop_nil, List.append_nil, List.nil_append]

end Programs

/-- The programs show the same if lines are passed on or the file is empty, or if the offset
is not accepted. -/
theorem showSame_iff (buffering : Buffering) (limit : Nat) (content : List UInt8)
    (filePath str : Text) :
    ShowSame buffering limit content filePath str ↔
      ((∃ offset, handleOffset (some filePath) (some str) = .ok offset) →
        buffering.mode = .line ∨ content = []) := by
  constructor
  · rintro same ⟨offset, accepted⟩
    have enough := Nat.lt_succ_self content.length
    cases mode : buffering.mode with
    | line => exact Or.inl rfl
    | full =>
        have lseek := (same offset _ accepted enough).1
        exact Or.inr ((full_announces_iff mode limit enough offset).mp lseek)
  · intro condition offset fuel accepted enough
    refine ⟨?_, fseeko_shows buffering limit enough offset⟩
    cases mode : buffering.mode with
    | line => exact lseek_shows_line mode limit enough offset
    | full =>
        have empty : content = [] := by
          rcases condition ⟨offset, accepted⟩ with lines | empty
          · rw [mode] at lines
            cases lines
          · exact empty
        exact (full_announces_iff mode limit enough offset).mpr empty

/-- A file of one letter, shown into a full buffer. -/
theorem oneLetter_comesFirst :
    let buffering : Buffering := { mode := .full, capacity := 256, large := Nat.le_refl 256 }
    handleOffset (some ⟨[102], by decide⟩) (some ⟨[48], by decide⟩) = .ok 0 ∧
      ¬ShowSame buffering 1000 [65] ⟨[102], by decide⟩ ⟨[48], by decide⟩ := by
  intro buffering
  have accepted : handleOffset (some ⟨[102], by decide⟩) (some ⟨[48], by decide⟩) = .ok 0 := rfl
  refine ⟨accepted, ?_⟩
  intro same
  have lseek := (same 0 2 accepted (by decide)).1
  have empty := (@full_announces_iff buffering 2 [65] rfl 1000 (by decide) 0).mp lseek
  cases empty

end CExamples.SeekDemos
