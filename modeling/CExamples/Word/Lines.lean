import CExamples.Program.Each
import CExamples.Word.CString
import CExamples.Word.Splits

/-!
# Reading a file by lines

`fgets` reads a line up to its newline, or as much of it as its buffer holds; the rest
of the line comes with the next calls.  `strtok_r` then takes the words of what was
read.  So a word is cut where the buffer is full within it.
-/

namespace CExamples.Word

open CExamples.Program

/-- The bytes of a line that there is `room` for, and the rest of the file. -/
def takeLine : Nat → List UInt8 → List UInt8 × List UInt8
  | 0, file => ([], file)
  | _ + 1, [] => ([], [])
  | room + 1, byte :: file =>
      if byte = 10 then ([byte], file)
      else (byte :: (takeLine room file).1, (takeLine room file).2)

/-- `fgets(line, size, file)`: the bytes before the terminator that it stores. -/
def fgets (size : Nat) (file : List UInt8) : Option (List UInt8 × List UInt8) :=
  if file = [] then none else some (takeLine (size - 1) file)

/-- `strtok_r(text, delimiters, &saveptr)`: the next word, and the text behind the
delimiter that ends it. -/
def strtokR (delimiter : UInt8 → Bool) (text : List UInt8) : Option (List UInt8 × List UInt8) :=
  let start := text.dropWhile delimiter
  if start = [] then none
  else some (start.takeWhile fun byte => !delimiter byte,
    (start.dropWhile fun byte => !delimiter byte).tail)

/-! ## Lines -/

theorem takeLine_append (room : Nat) (file : List UInt8) :
    (takeLine room file).1 ++ (takeLine room file).2 = file := by
  induction room generalizing file with
  | zero => rfl
  | succ room ih =>
      cases file with
      | nil => rfl
      | cons byte file =>
          rw [takeLine]
          split
          · rfl
          · rw [List.cons_append, ih]

/-- A line ends with its newline, where the room ends, or with the file. -/
theorem takeLine_cases (room : Nat) (file : List UInt8) :
    ∃ body, 10 ∉ body ∧ body.length ≤ room ∧
      ((takeLine room file).1 = body ++ [10] ∨
        (takeLine room file).1 = body ∧ (body.length = room ∨ (takeLine room file).2 = [])) := by
  induction room generalizing file with
  | zero => exact ⟨[], List.not_mem_nil, Nat.le_refl 0, Or.inr ⟨rfl, Or.inl rfl⟩⟩
  | succ room ih =>
      cases file with
      | nil => exact ⟨[], List.not_mem_nil, Nat.zero_le _, Or.inr ⟨rfl, Or.inr rfl⟩⟩
      | cons byte file =>
          by_cases newline : byte = 10
          · refine ⟨[], List.not_mem_nil, Nat.zero_le _, Or.inl ?_⟩
            rw [takeLine, if_pos newline, newline]
            rfl
          · obtain ⟨body, noNewline, short, ends⟩ := ih file
            rw [takeLine, if_neg newline]
            refine ⟨byte :: body, ?_, Nat.succ_le_succ short, ?_⟩
            · exact List.not_mem_cons_of_ne_of_not_mem (Ne.symm newline) noNewline
            · rcases ends with line | ⟨line, full⟩
              · exact Or.inl (congrArg (byte :: ·) line)
              · exact Or.inr ⟨congrArg (byte :: ·) line, full.imp_left (congrArg (· + 1))⟩

theorem takeLine_ne_nil {room : Nat} (positive : 0 < room) {file : List UInt8}
    (nonempty : file ≠ []) : (takeLine room file).1 ≠ [] := by
  obtain ⟨less, rfl⟩ := Nat.exists_eq_add_one_of_ne_zero (Nat.ne_of_gt positive)
  cases file with
  | nil => exact absurd rfl nonempty
  | cons byte file =>
      rw [takeLine]
      split
      · exact List.cons_ne_nil _ _
      · exact List.cons_ne_nil _ _

theorem length_takeLine_lt {room : Nat} (positive : 0 < room) {file : List UInt8}
    (nonempty : file ≠ []) : (takeLine room file).2.length < file.length := by
  have lengths := congrArg List.length (takeLine_append room file)
  have taken := List.length_pos_iff.mpr (takeLine_ne_nil positive nonempty)
  rw [List.length_append] at lengths
  omega

/-- What successive calls of `fgets` read. -/
def lines (size : Nat) (file : List UInt8) : List (List UInt8) :=
  if readable : 1 < size ∧ file ≠ [] then
    (takeLine (size - 1) file).1 :: lines size (takeLine (size - 1) file).2
  else []
termination_by file.length
decreasing_by exact length_takeLine_lt (by omega) readable.2

theorem streams_fgets {size : Nat} (large : 1 < size) :
    Streams (fgets size) (lines size) List.length := by
  constructor
  · intro file ended
    unfold fgets at ended
    split at ended
    · rename_i empty
      rw [lines, dif_neg fun readable => readable.2 empty]
    · cases ended
  · intro file line rest taken
    unfold fgets at taken
    split at taken
    · cases taken
    · rename_i nonempty
      have pair := Option.some.inj taken
      have lineEq : (takeLine (size - 1) file).1 = line := congrArg Prod.fst pair
      have restEq : (takeLine (size - 1) file).2 = rest := congrArg Prod.snd pair
      rw [lines, dif_pos ⟨large, nonempty⟩, lineEq, restEq]
      refine ⟨rfl, ?_⟩
      rw [← restEq]
      exact length_takeLine_lt (by omega) nonempty

/-- The bytes of the lines are those of the file. -/
theorem mem_of_mem_lines {size : Nat} {file line : List UInt8} {byte : UInt8}
    (isLine : line ∈ lines size file) (member : byte ∈ line) : byte ∈ file := by
  induction file using lines.induct size with
  | case1 file readable ih =>
      rw [lines, dif_pos readable] at isLine
      rw [← takeLine_append (size - 1) file]
      rcases List.mem_cons.mp isLine with rfl | later
      · exact List.mem_append_left _ member
      · exact List.mem_append_right _ (ih later)
  | case2 file ended =>
      rw [lines, dif_neg ended] at isLine
      cases isLine

/-- A newline can only be the last byte of a line. -/
theorem exists_body_of_mem_lines {size : Nat} {file line : List UInt8}
    (isLine : line ∈ lines size file) : ∃ body, 10 ∉ body ∧ (line = body ++ [10] ∨ line = body) := by
  induction file using lines.induct size with
  | case1 file readable ih =>
      rw [lines, dif_pos readable] at isLine
      rcases List.mem_cons.mp isLine with rfl | later
      · obtain ⟨body, noNewline, -, ends⟩ := takeLine_cases (size - 1) file
        exact ⟨body, noNewline, ends.imp_right And.left⟩
      · exact ih later
  | case2 file ended =>
      rw [lines, dif_neg ended] at isLine
      cases isLine

/-- The words of the lines are no longer than those of the file. -/
theorem exists_length_le_of_mem_lines {size : Nat} {file line word : List UInt8}
    (isLine : line ∈ lines size file) (member : word ∈ wordsOf line) :
    ∃ whole ∈ wordsOf file, word.length ≤ whole.length := by
  induction file using lines.induct size generalizing word with
  | case1 file readable ih =>
      rw [lines, dif_pos readable] at isLine
      rw [← takeLine_append (size - 1) file]
      rcases List.mem_cons.mp isLine with rfl | later
      · exact exists_length_le (List.mem_append_left _ member)
      · obtain ⟨middle, inRest, shorter⟩ := ih later member
        have inEither : middle ∈ wordsOf (takeLine (size - 1) file).1 ++
            wordsOf (takeLine (size - 1) file).2 := List.mem_append_right _ inRest
        obtain ⟨whole, inFile, longer⟩ := exists_length_le inEither
        exact ⟨whole, inFile, Nat.le_trans shorter longer⟩
  | case2 file ended =>
      rw [lines, dif_neg ended] at isLine
      cases isLine

/-! ## Words -/

section Tokens

variable {delimiter : UInt8 → Bool}

/-- Delimiters in front make no word. -/
theorem wordsBy_dropWhile (text : List UInt8) :
    wordsBy delimiter (text.dropWhile delimiter) = wordsBy delimiter text := by
  induction text with
  | nil => rfl
  | cons byte text ih =>
      cases delimits : delimiter byte with
      | false => rw [List.dropWhile_cons_of_neg (by simp [delimits])]
      | true =>
          rw [List.dropWhile_cons_of_pos delimits, ih, ← List.nil_append (byte :: text),
            wordsBy_append_cons [] text delimits, wordsBy_nil, List.nil_append]

/-- The letters up to a delimiter are the first word. -/
theorem wordsBy_eq_cons {byte : UInt8} (ordinary : delimiter byte = false) (text : List UInt8) :
    wordsBy delimiter (byte :: text) =
      ((byte :: text).takeWhile fun letter => !delimiter letter) ::
        wordsBy delimiter ((byte :: text).dropWhile fun letter => !delimiter letter).tail := by
  generalize start : byte :: text = whole
  have letters : ∀ letter ∈ whole.takeWhile fun letter => !delimiter letter,
      delimiter letter = false := by
    intro letter member
    simpa using List.mem_takeWhile_imp member
  have nonempty : (whole.takeWhile fun letter => !delimiter letter) ≠ [] := by
    rw [← start, List.takeWhile_cons_of_pos (by simp [ordinary])]
    exact List.cons_ne_nil _ _
  have split := List.takeWhile_append_dropWhile (p := fun letter => !delimiter letter) (l := whole)
  have ends := List.head?_dropWhile_not (fun letter => !delimiter letter) whole
  generalize whole.takeWhile (fun letter => !delimiter letter) = word at *
  generalize whole.dropWhile (fun letter => !delimiter letter) = rest at *
  subst split
  cases rest with
  | nil =>
      rw [List.append_nil, wordsBy_eq_singleton nonempty letters, List.tail_nil, wordsBy_nil]
  | cons next rest =>
      have delimits : delimiter next = true := by simpa using ends
      rw [wordsBy_append_cons word rest delimits, wordsBy_eq_singleton nonempty letters]
      rfl

theorem streams_strtokR : Streams (strtokR delimiter) (wordsBy delimiter) List.length := by
  constructor
  · intro text ended
    rw [← wordsBy_dropWhile]
    unfold strtokR at ended
    dsimp only at ended
    split at ended
    · rename_i empty
      rw [empty, wordsBy_nil]
    · cases ended
  · intro text word rest taken
    have shorter : (text.dropWhile delimiter).length ≤ text.length :=
      (List.dropWhile_sublist delimiter).length_le
    rw [← wordsBy_dropWhile]
    unfold strtokR at taken
    have first := List.head?_dropWhile_not delimiter text
    generalize text.dropWhile delimiter = start at *
    cases start with
    | nil => cases taken
    | cons byte start =>
        have ordinary : delimiter byte = false := first
        rw [if_neg (List.cons_ne_nil byte start)] at taken
        obtain ⟨rfl, rfl⟩ := Prod.mk.inj (Option.some.inj taken)
        refine ⟨wordsBy_eq_cons ordinary start, ?_⟩
        rw [List.dropWhile_cons_of_pos (by simp [ordinary])]
        have dropped : (start.dropWhile fun letter => !delimiter letter).tail.length ≤
            start.length := by
          rw [List.length_tail]
          exact Nat.le_trans (Nat.sub_le _ _) (List.dropWhile_sublist _).length_le
        exact Nat.lt_of_lt_of_le (Nat.lt_succ_of_le dropped) shorter

end Tokens

/-! ## Where words are cut -/

/-- The column behind `bytes`, which start at `column` of their line. -/
def advance (column : Nat) (bytes : List UInt8) : Nat :=
  bytes.foldl (fun column byte => if byte = 10 then 0 else column + 1) column

/-- In a text that starts at `column` of its line, the column between two letters of one
word is never a multiple of `room`. -/
def UnsplitFrom (room column : Nat) (text : List UInt8) : Prop :=
  ∀ index last next, text[index]? = some last → text[index + 1]? = some next →
    isDelimiter last = false → isDelimiter next = false →
      ¬room ∣ advance column (text.take (index + 1))

/-- No word of the file goes on where a buffer for `room` bytes of a line is full. -/
def Unsplit (room : Nat) (file : List UInt8) : Prop :=
  UnsplitFrom room 0 file

theorem advance_append (column : Nat) (first second : List UInt8) :
    advance column (first ++ second) = advance (advance column first) second :=
  List.foldl_append

@[simp]
theorem advance_newline (column : Nat) (body : List UInt8) : advance column (body ++ [10]) = 0 := by
  rw [advance_append]
  rfl

theorem advance_of_not_mem {body : List UInt8} (noNewline : 10 ∉ body) (column : Nat) :
    advance column body = column + body.length := by
  induction body generalizing column with
  | nil => rfl
  | cons byte body ih =>
      obtain ⟨ordinary, noNewline⟩ := not_or.mp (List.mem_cons.not.mp noNewline)
      have step : advance column (byte :: body) = advance (column + 1) body := by
        rw [advance, List.foldl_cons, if_neg (Ne.symm ordinary)]
        rfl
      rw [step, ih noNewline, List.length_cons]
      omega

/-- A newline is no letter. -/
theorem ne_newline {byte : UInt8} (ordinary : isDelimiter byte = false) : byte ≠ 10 := by
  rintro rfl
  cases ordinary

/-- Within a line that fits, no column is a multiple of the room. -/
theorem not_dvd_advance {room column : Nat} {body : List UInt8} (aligned : room ∣ column)
    (noNewline : 10 ∉ body) (positive : 0 < body.length) (short : body.length < room) :
    ¬room ∣ advance column body := by
  rw [advance_of_not_mem noNewline, Nat.dvd_add_right aligned]
  exact Nat.not_dvd_of_pos_of_lt positive short

section Line

variable {room column : Nat} {line rest : List UInt8}

/-- The words of a text are not cut if they are not cut within its first line, behind it,
and in the rest. -/
theorem unsplitFrom_append (room column : Nat) (line rest : List UInt8) :
    UnsplitFrom room column (line ++ rest) ↔
      UnsplitFrom room column line ∧
        (Splits isDelimiter line rest → ¬room ∣ advance column line) ∧
          UnsplitFrom room (advance column line) rest := by
  constructor
  · intro unsplit
    refine ⟨?_, ?_, ?_⟩
    · intro index last next lastAt nextAt
      have inside := (List.getElem?_eq_some_iff.mp nextAt).1
      have cut := unsplit index last next
      rw [List.getElem?_append_left (by omega), List.getElem?_append_left inside,
        List.take_append_of_le_length (by omega)] at cut
      exact cut lastAt nextAt
    · rintro ⟨last, next, isLast, isNext, lastOrdinary, nextOrdinary⟩
      obtain ⟨text, rfl⟩ := List.getLast?_eq_some_iff.mp isLast
      obtain ⟨rest, rfl⟩ := List.head?_eq_some_iff.mp isNext
      have cut := unsplit text.length last next (by simp) (by simp) lastOrdinary nextOrdinary
      rwa [List.take_left' (by simp)] at cut
    · intro index last next lastAt nextAt
      have cut := unsplit (line.length + index) last next
      rw [Nat.add_assoc, List.getElem?_append_right (by omega),
        List.getElem?_append_right (by omega), Nat.add_sub_cancel_left, Nat.add_sub_cancel_left,
        List.take_length_add_append, advance_append] at cut
      exact cut lastAt nextAt
  · rintro ⟨first, between, second⟩ index last next lastAt nextAt lastOrdinary nextOrdinary
    rcases Nat.lt_trichotomy (index + 1) line.length with inside | border | behind
    · rw [List.getElem?_append_left (by omega)] at lastAt
      rw [List.getElem?_append_left inside] at nextAt
      rw [List.take_append_of_le_length (by omega)]
      exact first index last next lastAt nextAt lastOrdinary nextOrdinary
    · rw [List.getElem?_append_left (by omega)] at lastAt
      rw [List.getElem?_append_right (by omega), border, Nat.sub_self] at nextAt
      rw [List.take_left' border.symm]
      apply between
      refine ⟨last, next, ?_, ?_, lastOrdinary, nextOrdinary⟩
      · rw [List.getLast?_eq_getElem?, ← border]
        exact lastAt
      · rw [List.head?_eq_getElem?]
        exact nextAt
    · obtain ⟨more, rfl⟩ := Nat.exists_eq_add_of_le (Nat.le_of_lt_succ behind)
      rw [List.getElem?_append_right (by omega), Nat.add_sub_cancel_left] at lastAt
      rw [Nat.add_assoc, List.getElem?_append_right (by omega), Nat.add_sub_cancel_left] at nextAt
      rw [Nat.add_assoc, List.take_length_add_append, advance_append]
      exact second more last next lastAt nextAt lastOrdinary nextOrdinary

/-- Within what `fgets` reads at once no word is cut. -/
theorem unsplitFrom_takeLine (aligned : room ∣ column) (file : List UInt8) :
    UnsplitFrom room column (takeLine room file).1 := by
  obtain ⟨body, noNewline, short, ends⟩ := takeLine_cases room file
  intro index last next lastAt nextAt lastOrdinary nextOrdinary
  -- a newline can only be the last byte, and is no letter
  have inside : index + 1 < body.length := by
    rcases ends with line | ⟨line, _⟩
    · rw [line] at nextAt
      by_contra outside
      rw [List.getElem?_append_right (by omega)] at nextAt
      exact ne_newline nextOrdinary (List.mem_singleton.mp (List.mem_of_getElem? nextAt))
    · rw [line] at nextAt
      exact (List.getElem?_eq_some_iff.mp nextAt).1
  have taken : (takeLine room file).1.take (index + 1) = body.take (index + 1) := by
    rcases ends with line | ⟨line, _⟩
    · rw [line, List.take_append_of_le_length (by omega)]
    · rw [line]
  rw [taken]
  have length : (body.take (index + 1)).length = index + 1 := List.length_take_of_le (by omega)
  apply not_dvd_advance aligned
  · exact fun member => noNewline (List.mem_of_mem_take member)
  · omega
  · omega

/-- Behind what `fgets` has read, the column is a multiple of the room, or the file has
ended. -/
theorem aligned_takeLine (aligned : room ∣ column) (file : List UInt8) :
    room ∣ advance column (takeLine room file).1 ∨ (takeLine room file).2 = [] := by
  obtain ⟨body, noNewline, _, line | ⟨line, full | ended⟩⟩ := takeLine_cases room file
  · rw [line, advance_newline]
    exact Or.inl (Nat.dvd_zero room)
  · rw [line, advance_of_not_mem noNewline, full]
    exact Or.inl ((Nat.dvd_add_self_right).mpr aligned)
  · exact Or.inr ended

/-- A cut behind what `fgets` has read is where the buffer is full. -/
theorem splits_takeLine_iff (aligned : room ∣ column) (file : List UInt8) :
    (Splits isDelimiter (takeLine room file).1 (takeLine room file).2 →
        ¬room ∣ advance column (takeLine room file).1) ↔
      ¬Splits isDelimiter (takeLine room file).1 (takeLine room file).2 := by
  rcases aligned_takeLine aligned file with full | ended
  · exact imp_congr_right fun _ => iff_of_false (not_not.mpr full) id
  · have whole : ¬Splits isDelimiter (takeLine room file).1 (takeLine room file).2 := by
      rintro ⟨last, next, -, isNext, -⟩
      rw [ended] at isNext
      cases isNext
    exact iff_of_true (fun splits => absurd splits whole) whole

end Line

/-- The words of the lines of a text that starts at `column` of its line are those of the
text exactly if no word is cut, and never fewer. -/
structure LinesKeep (size column : Nat) (text : List UInt8) : Prop where
  many : (wordsOf text).length ≤ ((lines size text).flatMap wordsOf).length
  same : (lines size text).flatMap wordsOf = wordsOf text ↔ UnsplitFrom (size - 1) column text

/-- One line more. -/
theorem LinesKeep.step {size column : Nat} (large : 1 < size) {text : List UInt8}
    (aligned : size - 1 ∣ column) (nonempty : text ≠ [])
    (rest : LinesKeep size (advance column (takeLine (size - 1) text).1)
      (takeLine (size - 1) text).2) : LinesKeep size column text := by
  have lines_eq : lines size text =
      (takeLine (size - 1) text).1 :: lines size (takeLine (size - 1) text).2 := by
    rw [lines, dif_pos ⟨large, nonempty⟩]
  have first := unsplitFrom_takeLine aligned text
  have cut := splits_takeLine_iff aligned text
  have whole := takeLine_append (size - 1) text
  generalize takeLine (size - 1) text = taken at *
  obtain ⟨line, later⟩ := taken
  subst whole
  dsimp only at first cut rest lines_eq ⊢
  constructor
  · rw [lines_eq, List.flatMap_cons, List.length_append]
    have more : (wordsOf (line ++ later)).length ≤ (wordsOf line).length + (wordsOf later).length :=
      length_wordsBy_append_le line later
    have many := rest.many
    omega
  · rw [lines_eq, List.flatMap_cons, unsplitFrom_append, and_iff_right first, cut, ← rest.same]
    exact append_eq_wordsBy_iff rest.many

/-- Which files have the words of their lines. -/
theorem flatMap_lines_eq_iff {size : Nat} (large : 1 < size) (file : List UInt8) :
    (lines size file).flatMap wordsOf = wordsOf file ↔ Unsplit (size - 1) file := by
  have all (column : Nat) (aligned : size - 1 ∣ column ∨ file = []) :
      LinesKeep size column file := by
    induction length : file.length using Nat.strongRecOn generalizing file column with
    | ind _ ih =>
        by_cases empty : file = []
        · subst empty
          constructor
          · rw [lines, dif_neg fun readable => readable.2 rfl]
            exact Nat.le_refl _
          · rw [lines, dif_neg fun readable => readable.2 rfl]
            exact iff_of_true rfl fun _ _ _ lastAt => by cases lastAt
        · have divides := aligned.resolve_right empty
          apply LinesKeep.step large divides empty
          apply ih _ _ _ _ (aligned_takeLine divides file) rfl
          rw [← length]
          exact length_takeLine_lt (by omega) empty
  exact (all 0 (Or.inl (Nat.dvd_zero _))).same

end CExamples.Word
