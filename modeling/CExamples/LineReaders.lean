import CExamples.Word.Lines

/-!
# The readers of words by lines

`io-multiplexing/client.c`, `child_process` of
`pthread-condition/pthread_cond_wait-pthread_cond_signal/main.c` and
`shared-memory/mmap-munmap/client.c` read their files with `fgets` and `strtok_r`.
None of them looks whether a line has filled the buffer, so that a word that goes on
behind it is handed on as two.
-/

namespace CExamples.LineReaders

open CExamples.Program
open CExamples.Word

/-- A reader, with the words that it has handed on; `none` tells that they have ended. -/
abbrev Run := Prog Empty (List (Option (List UInt8)))

def handOn (word : Option (List UInt8)) : Run PUnit :=
  modify (· ++ [word])

/-- The loops of `fgets` and `strtok_r`. -/
def readWords (size : Nat) (text : List UInt8 → List UInt8) (delimiter : UInt8 → Bool)
    (service : List UInt8 → Run PUnit) (file : List UInt8) : Run PUnit :=
  each (fgets size)
    (fun line => each (strtokR delimiter) service ((text line).length + 1) (text line))
    (file.length + 1) file

/-! ## The programs -/

/-- `LINE_LEN` -/
def lineLen : Nat :=
  1024

/-- The inner loop of `io-multiplexing/client.c`. -/
def clientWord (word : List UInt8) : Run PUnit :=
  if word.length > 255 then throw (.exit 1 "Word exceeds maximum length\n")
  else handOn (some word)

/-- The read loop of `io-multiplexing/client.c`. -/
def client (file : List UInt8) : Run PUnit :=
  readWords lineLen cString isDelimiter clientWord file

/-- `MAX_WORD_LENGTH` -/
def maxWordLength : Nat :=
  255

/-- The line after its newline is overwritten with a terminator. -/
def cutNewline (line : List UInt8) : List UInt8 :=
  (cString line).takeWhile (· ≠ 10)

/-- Space and tab. -/
def isBlank (byte : UInt8) : Bool :=
  byte == 32 || byte == 9

/-- `child_process` behind its `fopen`. -/
def childProcess (file : List UInt8) : Run PUnit := do
  readWords maxWordLength cutNewline isBlank (fun token => handOn (some token)) file
  handOn none

/-- `SHM_SIZE` -/
def shmSize : Nat :=
  1024

/-- `BUFFER_LEN` -/
def bufferLen : Nat :=
  100

/-- The inner loop of `shared-memory/mmap-munmap/client.c`. -/
def sharedMemoryWord (word : List UInt8) : Run PUnit :=
  if word.length ≥ shmSize - 1 then throw (.exit 1 "Word too long for shared memory: %s\n")
  else handOn (some word)

/-- `main` of `shared-memory/mmap-munmap/client.c` behind its acquisitions. -/
def sharedMemoryClient (file : List UInt8) : Run PUnit := do
  readWords bufferLen cString isDelimiter sharedMemoryWord file
  handOn none

/-- The reader hands on the words of its file in order, and then the `ending`. -/
def Delivers (reader : List UInt8 → Run PUnit) (ending : List (Option (List UInt8)))
    (file : List UInt8) : Prop :=
  reader file [] = .ok ⟨⟩ ((wordsOf file).map some ++ ending)

/-! ## What is handed on -/

variable {size : Nat} {file : Text}

/-- The words of the lines are handed on if all of them are accepted. -/
theorem readWords_eq_ok {text : List UInt8 → List UInt8} {delimiter : UInt8 → Bool}
    {service : List UInt8 → Run PUnit} (large : 1 < size)
    (same : ∀ line ∈ lines size file.bytes, wordsBy delimiter (text line) = wordsOf line)
    (accepts : ∀ line ∈ lines size file.bytes, ∀ word ∈ wordsOf line, ∀ log,
      service word log = .ok ⟨⟩ (log ++ [some word])) :
    readWords size text delimiter service file.bytes [] =
      .ok ⟨⟩ (((lines size file.bytes).flatMap wordsOf).map some) := by
  have tokens (line : List UInt8) (isLine : line ∈ lines size file.bytes)
      (log : List (Option (List UInt8))) :
      each (strtokR delimiter) service ((text line).length + 1) (text line) log =
        .ok ⟨⟩ (log ++ (wordsOf line).map some) := by
    rw [streams_strtokR.each_eq service (Nat.lt_succ_self _), same line isLine,
      forM_eq_ok (accepts line isLine), List.map_eq_flatMap]
  rw [readWords, (streams_fgets large).each_eq _ (Nat.lt_succ_self _), forM_eq_ok tokens,
    List.nil_append, List.map_flatMap]

/-- The lines of a text have no terminators. -/
theorem cString_line {line : List UInt8} (isLine : line ∈ lines size file.bytes) :
    cString line = line :=
  cString_eq_self fun zero => file.noZero (mem_of_mem_lines isLine zero)

/-- Without its newline a line has the same words. -/
theorem wordsBy_cutNewline {line : List UInt8} (isLine : line ∈ lines size file.bytes) :
    wordsBy isBlank (cutNewline line) = wordsOf line := by
  obtain ⟨body, noNewline, ends⟩ := exists_body_of_mem_lines isLine
  have ordinary (byte : UInt8) (member : byte ∈ body) : byte ≠ 10 :=
    ne_of_mem_of_not_mem member noNewline
  have cut : cutNewline line = body := by
    rw [cutNewline, cString_line isLine]
    rcases ends with rfl | rfl
    · rw [List.takeWhile_append_of_pos fun byte member => decide_eq_true (ordinary byte member)]
      exact List.append_nil body
    · exact List.takeWhile_eq_self_iff.mpr fun byte member => decide_eq_true (ordinary byte member)
  have words : wordsOf line = wordsOf body := by
    rcases ends with rfl | rfl
    · rw [wordsOf, wordsBy_append_cons body [] rfl, wordsBy_nil, List.append_nil, wordsOf]
    · rfl
  rw [cut, words]
  apply wordsBy_congr
  intro byte member
  have notNewline : (byte == 10) = false := beq_eq_false_iff_ne.mpr (ordinary byte member)
  rw [isBlank, isDelimiter, notNewline, Bool.or_false]

/-- What is handed on is what the lines hold. -/
theorem ok_eq_iff (file : Text) (large : 1 < size) (ending : List (Option (List UInt8))) :
    (EStateM.Result.ok PUnit.unit (((lines size file.bytes).flatMap wordsOf).map some ++ ending) :
        EStateM.Result (Halt Empty) (List (Option (List UInt8))) PUnit) =
      .ok ⟨⟩ ((wordsOf file.bytes).map some ++ ending) ↔ Unsplit (size - 1) file.bytes := by
  rw [← flatMap_lines_eq_iff large file.bytes, EStateM.Result.ok.injEq,
    List.append_left_inj, (List.map_injective_iff.mpr fun _ _ => Option.some.inj).eq_iff]
  exact and_iff_right rfl

/-- The longest word of a line is not longer than that of the file. -/
theorem length_le_of_fits {limit : Nat} (fits : ∀ word ∈ wordsOf file.bytes, word.length ≤ limit)
    {line word : List UInt8} (isLine : line ∈ lines size file.bytes) (member : word ∈ wordsOf line) :
    word.length ≤ limit := by
  obtain ⟨whole, inFile, longer⟩ := exists_length_le_of_mem_lines isLine member
  exact Nat.le_trans longer (fits whole inFile)

/-! ## The three readers -/

theorem client_delivers_iff (fits : ∀ word ∈ wordsOf file.bytes, word.length ≤ 255) :
    Delivers client [] file.bytes ↔ Unsplit 1023 file.bytes := by
  have run : client file.bytes [] =
      .ok ⟨⟩ (((lines lineLen file.bytes).flatMap wordsOf).map some) := by
    apply readWords_eq_ok (by decide)
    · intro line isLine
      rw [cString_line isLine]
      rfl
    · intro line isLine word member log
      rw [clientWord, if_neg (Nat.not_lt.mpr (length_le_of_fits fits isLine member))]
      rfl
  rw [Delivers, run]
  have large : 1 < lineLen := by decide
  have delivered := ok_eq_iff file large []
  rwa [List.append_nil] at delivered

theorem childProcess_delivers_iff (file : Text) :
    Delivers childProcess [none] file.bytes ↔ Unsplit 254 file.bytes := by
  have run : childProcess file.bytes [] =
      .ok ⟨⟩ (((lines maxWordLength file.bytes).flatMap wordsOf).map some ++ [none]) := by
    have words : readWords maxWordLength cutNewline isBlank (fun token => handOn (some token))
        file.bytes [] = .ok ⟨⟩ (((lines maxWordLength file.bytes).flatMap wordsOf).map some) :=
      readWords_eq_ok (by decide) (fun _ => wordsBy_cutNewline) fun _ _ _ _ _ => rfl
    change EStateM.bind _ _ _ = _
    rw [EStateM.bind, words]
    rfl
  rw [Delivers, run]
  exact ok_eq_iff file (by decide) [none]

theorem sharedMemoryClient_delivers_iff
    (fits : ∀ word ∈ wordsOf file.bytes, word.length ≤ 255) :
    Delivers sharedMemoryClient [none] file.bytes ↔ Unsplit 99 file.bytes := by
  have run : sharedMemoryClient file.bytes [] =
      .ok ⟨⟩ (((lines bufferLen file.bytes).flatMap wordsOf).map some ++ [none]) := by
    have words : readWords bufferLen cString isDelimiter sharedMemoryWord file.bytes [] =
        .ok ⟨⟩ (((lines bufferLen file.bytes).flatMap wordsOf).map some) := by
      apply readWords_eq_ok (by decide)
      · intro line isLine
        rw [cString_line isLine]
        rfl
      · intro line isLine word member log
        have short := length_le_of_fits fits isLine member
        rw [sharedMemoryWord, if_neg (by rw [shmSize]; omega)]
        rfl
    change EStateM.bind _ _ _ = _
    rw [EStateM.bind, words]
    rfl
  rw [Delivers, run]
  exact ok_eq_iff file (by decide) [none]

/-- Which files the three readers deliver. -/
theorem delivers_iff (file : Text) (fits : ∀ word ∈ wordsOf file.bytes, word.length ≤ 255) :
    (Delivers client [] file.bytes ↔ Unsplit 1023 file.bytes) ∧
      (Delivers childProcess [none] file.bytes ↔ Unsplit 254 file.bytes) ∧
        (Delivers sharedMemoryClient [none] file.bytes ↔ Unsplit 99 file.bytes) :=
  ⟨client_delivers_iff fits, childProcess_delivers_iff file,
    sharedMemoryClient_delivers_iff fits⟩

/-- Two short words on one line. -/
theorem twoWords_delivered :
    let file : Text := ⟨[97, 98, 32, 99, 10], by decide⟩
    (Delivers client [] file.bytes ↔ Unsplit 1023 file.bytes) ∧
      (Delivers childProcess [none] file.bytes ↔ Unsplit 254 file.bytes) ∧
        (Delivers sharedMemoryClient [none] file.bytes ↔ Unsplit 99 file.bytes) :=
  delivers_iff ⟨[97, 98, 32, 99, 10], by decide⟩ (by decide)

/-- Behind 98 spaces, the word `ab` is handed on as two words. -/
theorem lateWord_split :
    let file : Text := ⟨List.replicate 98 32 ++ [97, 98], by decide⟩
    wordsOf file.bytes = [[97, 98]] ∧
      sharedMemoryClient file.bytes [] = .ok ⟨⟩ [some [97], some [98], none] ∧
        ¬Delivers sharedMemoryClient [none] file.bytes := by
  intro file
  have words : wordsOf file.bytes = [[97, 98]] := by decide
  have run : sharedMemoryClient file.bytes [] = .ok ⟨⟩ [some [97], some [98], none] := rfl
  refine ⟨words, run, ?_⟩
  intro delivers
  rw [Delivers, run, words] at delivers
  cases delivers

end CExamples.LineReaders
