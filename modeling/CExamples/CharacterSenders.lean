import CExamples.Program.Keeps
import CExamples.Word.CString
import CExamples.Word.Frame
import CExamples.Word.Split

/-!
# The senders that read letter by letter

`child_process` of `pipe/reliable/main.c` and of `domain-socket/socketpair/main.c`
collect the letters of a word in an array, count them in a `uint8_t`, and send a word
when a delimiter or the end of the file ends it.  At a letter that would make the count
exceed `MAX_WORD_LENGTH` they leave with `EXIT_FAILURE`; so two files whose words
differ only from there on are sent alike.

All calls succeed, and a `write` transfers all bytes.  A terminator behind the end of
the array is lost.
-/

namespace CExamples.CharacterSenders

open CExamples.Program
open CExamples.Word

/-- The two programs. -/
inductive Sender
  | reliable
  | socketpair
  deriving DecidableEq, Repr

/-- `MAX_WORD_LENGTH` -/
def maxWordLength : Nat :=
  255

/-- The declared size of `word`. -/
def Sender.size : Sender → Nat
  | .reliable => maxWordLength
  | .socketpair => maxWordLength + 1

theorem Sender.le_size (sender : Sender) : maxWordLength ≤ sender.size := by
  cases sender <;> decide

/-- What a sender does, in order. -/
inductive Call
  /-- `word[length++] = (char)ch`, with the value of `length` before it -/
  | letter (length ch : UInt8)
  /-- `word[length] = '\0'` -/
  | terminator (length : UInt8)
  /-- the line of `send_word` -/
  | print (length : UInt8) (word : Option (List UInt8))
  | write (bytes : List UInt8)
  | semPost
  | semWait
  deriving DecidableEq

/-- A sender, with what it has done. -/
abbrev Run := Prog Empty (List Call)

def perform (call : Call) : Run PUnit :=
  modify (· ++ [call])

/-- The word is written behind its length unless it is empty. -/
def writeWord (word : Option (List UInt8)) (length : UInt8) : Run PUnit :=
  if length > 0 then perform (.write ((word.getD []).take length.toNat)) else pure ⟨⟩

/-- Only the child of the pipe waits for its parent. -/
def awaitParent (sender : Sender) : Run PUnit :=
  if sender = .reliable then do
    perform .semPost
    perform .semWait
  else pure ⟨⟩

/-- `send_word` -/
def sendWord (sender : Sender) (word : Option (List UInt8)) (length : UInt8) : Run PUnit := do
  perform (.print length (word.map cString))
  perform (.write [length])
  writeWord word length
  awaitParent sender

/-- `word[length] = '\0'` and the call of `send_word`. -/
def sendTerminated (sender : Sender) (word : List UInt8) (length : UInt8) : Run PUnit := do
  perform (.terminator length)
  sendWord sender (some (word.set length.toNat 0)) length

/-- The message at a word that is too long. -/
def tooLong : String :=
  "Encountered a word longer than the maximum allowed length"

/-- The loop of `child_process` over the rest of the file. -/
def childLoop (sender : Sender) : (file word : List UInt8) → UInt8 → Run (List UInt8 × UInt8)
  | [], word, length => pure (word, length)
  | ch :: file, word, length =>
      if isDelimiter ch then
        if length > 0 then do
          sendTerminated sender word length
          childLoop sender file (word.set length.toNat 0) 0
        else childLoop sender file word length
      else if length.toNat ≥ maxWordLength then throw (.exit 1 tooLong)
      else do
        perform (.letter length ch)
        childLoop sender file (word.set length.toNat ch) (length + 1)

/-- The word that the file ends with is sent. -/
def sendLast (sender : Sender) (word : List UInt8) (length : UInt8) : Run PUnit :=
  if length > 0 then sendTerminated sender word length else pure ⟨⟩

/-- What `child_process` does behind its loop. -/
def finish (sender : Sender) (word : List UInt8) (length : UInt8) : Run PUnit := do
  sendLast sender word length
  sendWord sender none 0

/-- `child_process`, where `word` is what its array holds at first. -/
def childProcess (sender : Sender) (word file : List UInt8) : Run PUnit := do
  let (word, length) ← childLoop sender file word 0
  finish sender word length

/-- The bytes that a call writes. -/
def Call.bytes : Call → List UInt8
  | .write bytes => bytes
  | _ => []

/-- The bytes that were written. -/
def stream (log : List Call) : List UInt8 :=
  log.flatMap Call.bytes

/-- The bytes that a sender writes, however it ends. -/
def sent (sender : Sender) (word file : List UInt8) : List UInt8 :=
  stream (finalState (childProcess sender word file []))

/-- No word of the file is too long. -/
def Fits (file : List UInt8) : Prop :=
  FitsBy isDelimiter maxWordLength file

/-- The words of the file before the first one that is too long. -/
def accepted (file : List UInt8) : List (List UInt8) :=
  acceptedBy isDelimiter maxWordLength file

/-- If the call raises the count, the count does not wrap. -/
def Call.Counts : Call → Prop
  | .letter length _ => (length + 1).toNat = length.toNat + 1
  | _ => True

/-- The count never wraps. -/
def NoWrap (log : List Call) : Prop :=
  ∀ call ∈ log, call.Counts

/-! ## What the calls do -/

@[simp]
theorem stream_append (first second : List Call) :
    stream (first ++ second) = stream first ++ stream second :=
  List.flatMap_append

theorem NoWrap.concat {log : List Call} (noWrap : NoWrap log) {call : Call}
    (counts : call.Counts) : NoWrap (log ++ [call]) := by
  intro other member
  rcases List.mem_append.mp member with before | last
  · exact noWrap other before
  · rw [List.mem_singleton.mp last]
    exact counts

/-- A count below the limit is raised by one. -/
theorem toNat_add_one {length : UInt8} (below : length.toNat < maxWordLength) :
    (length + 1).toNat = length.toNat + 1 := by
  rw [maxWordLength] at below
  rw [UInt8.toNat_add, UInt8.toNat_one]
  omega

/-- The bytes `written` have been written, and the count has not wrapped. -/
structure Written (written : List UInt8) (log : List Call) : Prop where
  stream : stream log = written
  noWrap : NoWrap log

section Written

variable {sender : Sender} {log : List Call} {written : List UInt8}
  {halt : Halt Empty → List Call → Prop}

/-- One more call. -/
theorem perform_written (holds : Written written log) (call : Call) (counts : call.Counts) :
    wp (perform call) (fun _ log => Written (written ++ call.bytes) log) halt log where
  stream := by
    rw [stream_append, holds.stream]
    exact congrArg (written ++ ·) (List.append_nil _)
  noWrap := holds.noWrap.concat counts

/-- One more call that writes nothing. -/
theorem perform_quiet (holds : Written written log) (call : Call) (counts : call.Counts)
    (silent : call.bytes = []) :
    wp (perform call) (fun _ log => Written written log) halt log := by
  have performed : wp (perform call) (fun _ log => Written (written ++ call.bytes) log) halt log :=
    perform_written holds call counts
  rwa [silent, List.append_nil] at performed

theorem awaitParent_written (holds : Written written log) :
    wp (awaitParent sender) (fun _ log => Written written log) halt log := by
  unfold awaitParent
  split
  · apply wp_seq (perform_quiet holds .semPost trivial rfl)
    intro _ _ posted
    exact perform_quiet posted .semWait trivial rfl
  · exact holds

theorem writeWord_written (holds : Written written log) {word : Option (List UInt8)}
    {length : UInt8} {letters : List UInt8} (lengthEq : length.toNat = letters.length)
    (prefixEq : (word.getD []).take length.toNat = letters) :
    wp (writeWord word length) (fun _ log => Written (written ++ letters) log) halt log := by
  unfold writeWord
  split
  · rw [prefixEq]
    exact perform_written holds (.write letters) trivial
  · rename_i zero
    have empty : letters = [] := by
      rw [gt_iff_lt, UInt8.lt_iff_toNat_lt, UInt8.toNat_zero, Nat.not_lt, lengthEq] at zero
      exact List.length_eq_zero_iff.mp (Nat.le_zero.mp zero)
    rw [empty, List.append_nil]
    exact holds

/-- `send_word` writes a frame. -/
theorem sendWord_written (holds : Written written log) {word : Option (List UInt8)}
    {length : UInt8} {letters : List UInt8} (lengthEq : length.toNat = letters.length)
    (prefixEq : (word.getD []).take length.toNat = letters) :
    wp (sendWord sender word length)
      (fun _ log => Written (written ++ frame byteLength letters) log) halt log := by
  have framed : written ++ frame byteLength letters = written ++ [length] ++ letters := by
    rw [List.append_assoc, ← UInt8.ofNat_toNat (x := length), lengthEq]
    rfl
  rw [framed]
  apply wp_seq (perform_quiet holds (.print length (word.map cString)) trivial rfl)
  intro _ _ printed
  apply wp_seq (perform_written printed (.write [length]) trivial)
  intro _ _ counted
  apply wp_seq (writeWord_written counted lengthEq prefixEq)
  intro _ _ sent
  exact awaitParent_written sent

/-- A word with its terminator is sent. -/
theorem sendTerminated_written (holds : Written written log) {word letters : List UInt8}
    {length : UInt8} (lengthEq : length.toNat = letters.length)
    (prefixEq : word.take length.toNat = letters) :
    wp (sendTerminated sender word length)
      (fun _ log => Written (written ++ frame byteLength letters) log) halt log := by
  apply wp_seq (perform_quiet holds (.terminator length) trivial rfl)
  intro _ _ terminated
  apply sendWord_written terminated lengthEq
  rw [Option.getD_some, List.take_set_of_le (Nat.le_refl _), prefixEq]

end Written

/-! ## The loop -/

/-- The array holds the letters of a word that is not too long, and `length` counts
them. -/
structure Holds (word : List UInt8) (length : UInt8) (letters : List UInt8) : Prop where
  lengthEq : length.toNat = letters.length
  prefixEq : word.take length.toNat = letters
  short : letters.length ≤ maxWordLength
  large : maxWordLength ≤ word.length
  letters : ∀ letter ∈ letters, isDelimiter letter = false

namespace Holds

variable {word letters : List UInt8} {length : UInt8}

theorem empty (large : maxWordLength ≤ word.length) : Holds word 0 [] where
  lengthEq := rfl
  prefixEq := List.take_zero
  short := Nat.zero_le _
  large := large
  letters := List.forall_mem_nil _

theorem pos_iff (holds : Holds word length letters) : length > 0 ↔ letters ≠ [] := by
  rw [gt_iff_lt, UInt8.lt_iff_toNat_lt, UInt8.toNat_zero, holds.lengthEq, List.length_pos_iff]

/-- One more letter. -/
theorem letter (holds : Holds word length letters) {ch : UInt8}
    (ordinary : isDelimiter ch = false) (room : length.toNat < maxWordLength) :
    Holds (word.set length.toNat ch) (length + 1) (letters ++ [ch]) := by
  have large := holds.large
  have raised := toNat_add_one room
  constructor
  · rw [raised, holds.lengthEq, List.length_append, List.length_singleton]
  · have inside : length.toNat < word.length := by omega
    rw [raised, List.set_eq_take_append_cons_drop, if_pos inside, List.append_cons,
      List.take_left', holds.prefixEq]
    rw [List.length_append, List.length_take_of_le (Nat.le_of_lt inside), List.length_singleton]
  · rw [List.length_append, List.length_singleton, ← holds.lengthEq]
    omega
  · rwa [List.length_set]
  · exact letters_concat holds.letters ordinary

end Holds

/-- With `letters` in the array and `rest` unread, the words `done` of the file have been
sent. -/
structure Sending (file : List UInt8) (done : List (List UInt8)) (letters rest : List UInt8)
    (log : List Call) : Prop where
  written : Written (frames byteLength done) log
  accepted : accepted file = done ++ acceptedBy isDelimiter maxWordLength (letters ++ rest)
  fits : Fits file ↔ FitsBy isDelimiter maxWordLength (letters ++ rest)

/-- The sender has left at a word that is too long. -/
structure Refused (file : List UInt8) (reason : Halt Empty) (log : List Call) : Prop where
  refuses : ¬Fits file
  reason : reason = .exit 1 tooLong
  written : Written (frames byteLength (accepted file)) log

/-- The loop sends the words of the file that a delimiter ends. -/
theorem childLoop_sending {sender : Sender} {file rest word letters : List UInt8} {length : UInt8}
    {done : List (List UInt8)} {log : List Call} (sending : Sending file done letters rest log)
    (holds : Holds word length letters) :
    wp (childLoop sender rest word length)
      (fun result log => ∃ done letters, Holds result.1 result.2 letters ∧
        Sending file done letters [] log)
      (Refused file) log := by
  induction rest generalizing word letters length done log with
  | nil => exact ⟨done, letters, holds, sending⟩
  | cons ch rest ih =>
      -- what the words are after one letter
      have next {outcome : Outcome UInt8}
          (reads : Reads isDelimiter maxWordLength (ch :: rest) letters outcome) :
          accepted file = done ++ outcome.accepted isDelimiter maxWordLength ∧
            (Fits file ↔ outcome.Fits isDelimiter maxWordLength) := by
        obtain ⟨acceptedEq, fitsIff⟩ := reads.wordsBy_eq holds.letters holds.short
        exact ⟨by rw [sending.accepted, acceptedEq], by rw [sending.fits, fitsIff]⟩
      rw [childLoop]
      cases delimits : isDelimiter ch with
      | true =>
          rw [if_pos rfl]
          by_cases positive : length > 0
          · rw [if_pos positive]
            have nonempty := holds.pos_iff.mp positive
            obtain ⟨acceptedEq, fitsIff⟩ := next (.send delimits nonempty)
            apply wp_seq (sendTerminated_written sending.written holds.lengthEq holds.prefixEq)
            intro _ log written
            apply ih _ (Holds.empty (by rw [List.length_set]; exact holds.large))
            · exact done ++ [letters]
            · constructor
              · rw [frames_append, frames_cons, frames_nil, List.append_nil]
                exact written
              · rw [acceptedEq, List.append_assoc]
                rfl
              · exact fitsIff
          · rw [if_neg positive]
            have empty : letters = [] := not_not.mp (mt holds.pos_iff.mpr positive)
            subst empty
            obtain ⟨acceptedEq, fitsIff⟩ := next (.skip delimits)
            exact ih ⟨sending.written, acceptedEq, fitsIff⟩ holds
      | false =>
          rw [if_neg Bool.false_ne_true]
          by_cases full : length.toNat ≥ maxWordLength
          · rw [if_pos full]
            rw [holds.lengthEq] at full
            obtain ⟨acceptedEq, fitsIff⟩ := next (.refuse delimits full)
            refine ⟨mt fitsIff.mp id, rfl, ?_⟩
            rw [acceptedEq]
            exact (List.append_nil done).symm ▸ sending.written
          · rw [if_neg full]
            have room := Nat.lt_of_not_le full
            obtain ⟨acceptedEq, fitsIff⟩ := next (.collect delimits (holds.lengthEq ▸ room))
            apply wp_seq (perform_quiet sending.written (.letter length ch) (toNat_add_one room) rfl)
            intro _ log written
            exact ih ⟨written, acceptedEq, fitsIff⟩ (holds.letter delimits room)

/-- At the end of the file the last word is sent. -/
theorem sendLast_sending {sender : Sender} {file word letters : List UInt8} {length : UInt8}
    {done : List (List UInt8)} {log : List Call} {halt : Halt Empty → List Call → Prop}
    (sending : Sending file done letters [] log) (holds : Holds word length letters) :
    wp (sendLast sender word length)
      (fun _ log => Fits file ∧ Written (frames byteLength (accepted file)) log) halt log := by
  have reads := reads_readNext isDelimiter maxWordLength [] letters
  generalize readNext isDelimiter maxWordLength [] letters = outcome at reads
  obtain ⟨acceptedEq, fitsIff⟩ := reads.wordsBy_eq holds.letters holds.short
  rw [← sending.fits] at fitsIff
  rw [sending.accepted, acceptedEq]
  unfold sendLast
  cases reads with
  | sendLast nonempty =>
      rw [if_pos (holds.pos_iff.mpr nonempty), frames_append]
      apply wp_conseq (sendTerminated_written sending.written holds.lengthEq holds.prefixEq)
      intro _ log written
      rw [Outcome.accepted, frames_cons, frames_nil, List.append_nil]
      exact ⟨fitsIff.mpr trivial, written⟩
  | finish =>
      rw [if_neg (mt holds.pos_iff.mp (not_not.mpr rfl)), Outcome.accepted, List.append_nil]
      exact ⟨fitsIff.mpr trivial, sending.written⟩

/-! ## The whole run -/

section Run

variable {sender : Sender} {word file : List UInt8}

theorem childProcess_written (large : maxWordLength ≤ word.length) :
    wp (childProcess sender word file)
      (fun _ log => Fits file ∧ Written (frames byteLength (accepted file) ++ [0]) log)
      (Refused file) [] := by
  have starts : Sending file [] [] file [] :=
    ⟨⟨rfl, fun _ member => absurd member List.not_mem_nil⟩, rfl, Iff.rfl⟩
  apply wp_seq (childLoop_sending starts (Holds.empty large))
  rintro ⟨word, length⟩ log ⟨done, letters, holds, sending⟩
  apply wp_seq (sendLast_sending sending holds)
  rintro _ log ⟨fits, written⟩
  have ended : wp (sendWord sender none 0) (fun _ log =>
      Written (frames byteLength (accepted file) ++ frame byteLength []) log) (Refused file) log :=
    sendWord_written written rfl rfl
  exact wp_conseq ended fun _ _ written => ⟨fits, written⟩

/-- The words with which a file is sent: the accepted ones, and an empty one if these are
all. -/
inductive SentAs (file : List UInt8) : List (List UInt8) → Prop
  | whole (fits : Fits file) : SentAs file (accepted file ++ [[]])
  | refused (tooLong : ¬Fits file) : SentAs file (accepted file)

theorem exists_sentAs (sender : Sender) (large : maxWordLength ≤ word.length) (file : List UInt8) :
    ∃ words, SentAs file words ∧ sent sender word file = frames byteLength words := by
  apply @finalState_of_wp _ _ _ _ _ fun log =>
    ∃ words, SentAs file words ∧ stream log = frames byteLength words
  apply wp_mono (childProcess_written large)
  · rintro _ log ⟨fits, written⟩
    refine ⟨_, .whole fits, ?_⟩
    rw [written.stream, frames_append]
    rfl
  · intro reason log refused
    exact ⟨_, .refused refused.refuses, refused.written.stream⟩

theorem SentAs.short {words : List (List UInt8)} (sentAs : SentAs file words) :
    ∀ letters ∈ words, letters.length ≤ byteLength.limit := by
  intro letters member
  cases sentAs with
  | whole _ =>
      rcases List.mem_append.mp member with inFile | last
      · exact (of_mem_acceptedBy inFile).2
      · rw [List.mem_singleton.mp last]
        exact Nat.zero_le _
  | refused _ => exact (of_mem_acceptedBy member).2

/-- Only a file that is sent as a whole is sent with an empty word. -/
theorem append_ne_accepted (words : List (List UInt8)) (file : List UInt8) :
    words ++ [[]] ≠ accepted file := by
  intro same
  have member : [] ∈ accepted file := by
    rw [← same]
    simp
  exact (of_mem_acceptedBy member).1 rfl

/-- The words with which a file is sent tell which were accepted and whether all were. -/
theorem SentAs.eq_iff {file' : List UInt8} {words words' : List (List UInt8)}
    (sentAs : SentAs file words) (sentAs' : SentAs file' words') :
    words = words' ↔ accepted file = accepted file' ∧ (Fits file ↔ Fits file') := by
  cases sentAs with
  | whole fits =>
      cases sentAs' with
      | whole fits' =>
          rw [List.append_left_inj]
          exact (and_iff_left (iff_of_true fits fits')).symm
      | refused tooLong =>
          exact iff_of_false (append_ne_accepted _ _) fun same => tooLong (same.2.mp fits)
  | refused tooLong =>
      cases sentAs' with
      | whole fits =>
          exact iff_of_false (append_ne_accepted _ _).symm fun same => tooLong (same.2.mpr fits)
      | refused tooLong' => exact (and_iff_left (iff_of_false tooLong tooLong')).symm

end Run

/-- What a sender does with a file. -/
structure Sends (sender : Sender) (word file : List UInt8) : Prop where
  run : wp (childProcess sender word file)
    (fun _ log => Fits file ∧ stream log = frames byteLength (wordsOf file) ++ [0])
    (fun reason log => ¬Fits file ∧ reason = .exit 1 tooLong ∧
      stream log = frames byteLength (accepted file)) []
  noWrap : NoWrap (finalState (childProcess sender word file []))
  proper : ∀ letters ∈ accepted file, letters ≠ [] ∧ letters.length ≤ 255

/-- The senders send the frames of the words before the first one that is too long, and
the stream tells these words and whether there is one that is too long. -/
theorem sends_frames (sender sender' : Sender)
    (word : { word : List UInt8 // word.length = sender.size })
    (word' : { word : List UInt8 // word.length = sender'.size }) (file file' : List UInt8) :
    Sends sender word.val file ∧
      (sent sender word.val file = sent sender' word'.val file' ↔
        accepted file = accepted file' ∧ (Fits file ↔ Fits file')) := by
  have large := sender.le_size
  have large' := sender'.le_size
  rw [← word.property] at large
  rw [← word'.property] at large'
  constructor
  · constructor
    · apply wp_mono (childProcess_written large)
      · rintro _ log ⟨fits, written⟩
        refine ⟨fits, ?_⟩
        rw [written.stream, accepted, fits.acceptedBy_eq, wordsOf]
      · exact fun reason log refused => ⟨refused.refuses, refused.reason, refused.written.stream⟩
    · apply finalState_of_wp
      apply wp_mono (childProcess_written large)
      · exact fun _ log ended => ended.2.noWrap
      · exact fun reason log refused => refused.written.noWrap
    · exact fun letters member => of_mem_acceptedBy member
  · obtain ⟨words, sentAs, sentEq⟩ := exists_sentAs sender large file
    obtain ⟨words', sentAs', sentEq'⟩ := exists_sentAs sender' large' file'
    rw [sentEq, sentEq', ← sentAs.eq_iff sentAs']
    constructor
    · intro same
      have decoded := congrArg (complete byteLength) same
      rwa [complete_frames byteLength sentAs.short, complete_frames byteLength sentAs'.short]
        at decoded
    · exact congrArg (frames byteLength)

/-- A file of 256 letters is refused. -/
theorem sentAs_replicate {letter : UInt8} (ordinary : isDelimiter letter = false)
    {words : List (List UInt8)} (sentAs : SentAs (List.replicate 256 letter) words) :
    words = [] := by
  have split : wordsBy isDelimiter (List.replicate 256 letter) = [List.replicate 256 letter] :=
    wordsBy_replicate ordinary (by decide)
  have long : ¬(List.replicate 256 letter).length ≤ maxWordLength := by
    rw [List.length_replicate]
    decide
  have refuses : ¬Fits (List.replicate 256 letter) := by
    intro fits
    exact long (fits _ (by rw [split]; exact List.mem_cons_self))
  cases sentAs with
  | whole fits => exact absurd fits refuses
  | refused =>
      rw [accepted, acceptedBy, split]
      exact List.takeWhile_cons_of_neg fun short => long (of_decide_eq_true short)

/-- Files of 256 letters are sent alike, whatever the letters are. -/
theorem longWords_sentAlike :
    let word : List UInt8 := List.replicate 255 0
    let file : List UInt8 := List.replicate 256 98
    let file' : List UInt8 := List.replicate 256 99
    wordsOf file ≠ wordsOf file' ∧
      sent .reliable word file = sent .reliable word file' := by
  intro word file file'
  have large : maxWordLength ≤ word.length := by
    rw [List.length_replicate, maxWordLength]
  constructor
  · have split : wordsOf file = [file] := wordsBy_replicate rfl (by decide)
    have split' : wordsOf file' = [file'] := wordsBy_replicate rfl (by decide)
    rw [split, split']
    decide
  · obtain ⟨words, sentAs, sentEq⟩ := exists_sentAs .reliable large file
    obtain ⟨words', sentAs', sentEq'⟩ := exists_sentAs .reliable large file'
    rw [sentEq, sentEq', sentAs_replicate rfl sentAs, sentAs_replicate rfl sentAs']

end CExamples.CharacterSenders
