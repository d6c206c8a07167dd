import Mathlib.Data.List.TakeWhile

/-!
# The words of a file

A word is a maximal run of letters between delimiters.  A reader that collects
letters one at a time holds the beginning of the next word, and the words of
what it holds followed by what it has not read stay the same while it reads.
-/

namespace CExamples.Word

universe u

variable {β : Type u}

/-- The maximal runs of letters that are not delimiters. -/
def wordsBy (delimiter : β → Bool) (file : List β) : List (List β) :=
  (file.splitOnP delimiter).filter fun word => !word.isEmpty

section WordsBy

variable {delimiter : β → Bool}

@[simp]
theorem wordsBy_nil : wordsBy delimiter [] = [] := by
  simp [wordsBy]

/-- A delimiter separates words. -/
theorem wordsBy_append_cons (first second : List β) {letter : β}
    (delimits : delimiter letter = true) :
    wordsBy delimiter (first ++ letter :: second) =
      wordsBy delimiter first ++ wordsBy delimiter second := by
  rw [wordsBy, List.splitOnP_append_cons first second delimits, List.filter_append]
  rfl

/-- A run of letters is a word. -/
theorem wordsBy_eq_singleton {word : List β} (nonempty : word ≠ [])
    (letters : ∀ letter ∈ word, delimiter letter = false) : wordsBy delimiter word = [word] := by
  rw [wordsBy, List.splitOnP_eq_singleton letters]
  simp [nonempty]

/-- A letter repeated is a word. -/
theorem wordsBy_replicate {letter : β} (ordinary : delimiter letter = false) {count : Nat}
    (positive : 0 < count) :
    wordsBy delimiter (List.replicate count letter) = [List.replicate count letter] := by
  apply wordsBy_eq_singleton
  · rw [← List.length_pos_iff, List.length_replicate]
    exact positive
  · intro other member
    rw [List.eq_of_mem_replicate member]
    exact ordinary

/-- Only what is a delimiter within the file matters. -/
theorem wordsBy_congr {other : β → Bool} {file : List β}
    (same : ∀ letter ∈ file, delimiter letter = other letter) :
    wordsBy delimiter file = wordsBy other file := by
  have splits : file.splitOnP delimiter = file.splitOnP other := by
    induction file with
    | nil => rfl
    | cons letter file ih =>
        rw [List.splitOnP_cons_eq_if_modifyHead, List.splitOnP_cons_eq_if_modifyHead,
          same letter List.mem_cons_self,
          ih fun letter' member => same letter' (List.mem_cons_of_mem letter member)]
  rw [wordsBy, wordsBy, splits]

theorem ne_nil_of_mem_wordsBy {file word : List β} (member : word ∈ wordsBy delimiter file) :
    word ≠ [] := by
  simpa using (List.mem_filter.mp member).2

/-- One more letter that is not a delimiter. -/
theorem letters_concat {word : List β} {letter : β}
    (letters : ∀ other ∈ word, delimiter other = false) (ordinary : delimiter letter = false) :
    ∀ other ∈ word ++ [letter], delimiter other = false := by
  intro other member
  rcases List.mem_append.mp member with inWord | last
  · exact letters other inWord
  · rwa [List.mem_singleton.mp last]

/-- The letters before the first delimiter belong to the first word. -/
theorem exists_wordsBy_append {word : List β} (nonempty : word ≠ [])
    (letters : ∀ letter ∈ word, delimiter letter = false) (file : List β) :
    ∃ more rest, wordsBy delimiter (word ++ file) = (word ++ more) :: rest := by
  induction file generalizing word with
  | nil =>
      refine ⟨[], [], ?_⟩
      rw [List.append_nil, wordsBy_eq_singleton nonempty letters]
  | cons letter file ih =>
      cases delimits : delimiter letter with
      | true =>
          refine ⟨[], wordsBy delimiter file, ?_⟩
          rw [wordsBy_append_cons word file delimits, wordsBy_eq_singleton nonempty letters,
            List.append_nil, List.singleton_append]
      | false =>
          obtain ⟨more, rest, split⟩ :=
            @ih (word ++ [letter]) (by simp) (letters_concat letters delimits)
          rw [List.append_assoc, List.singleton_append] at split
          exact ⟨letter :: more, rest, by simpa using split⟩

end WordsBy

/-! ## Reading letter by letter -/

/-- What a reader of words does next. -/
inductive Outcome (β : Type u)
  /-- it sends the word that a delimiter ends, and goes on with the rest of the file -/
  | send (word file : List β)
  /-- it sends the word that the file ends with -/
  | sendLast (word : List β)
  /-- it holds nothing at the end of the file -/
  | finish
  /-- it reads on -/
  | read (file word : List β)
  /-- it has no room for the letter -/
  | refuse

/-- The words that are still to be sent. -/
def Outcome.words (delimiter : β → Bool) : Outcome β → List (List β)
  | .send word file => word :: wordsBy delimiter file
  | .sendLast word => [word]
  | .finish => []
  | .read file word => wordsBy delimiter (word ++ file)
  | .refuse => []

/-- All words have at most `limit` letters. -/
def FitsBy (delimiter : β → Bool) (limit : Nat) (file : List β) : Prop :=
  ∀ word ∈ wordsBy delimiter file, word.length ≤ limit

/-- The words before the first one with more than `limit` letters. -/
def acceptedBy (delimiter : β → Bool) (limit : Nat) (file : List β) : List (List β) :=
  (wordsBy delimiter file).takeWhile fun word => word.length ≤ limit

/-- The words before the first one with more than `limit` letters have fewer. -/
def LeavesRoom (delimiter : β → Bool) (limit : Nat) (file : List β) : Prop :=
  ∀ word ∈ acceptedBy delimiter limit file, word.length < limit

/-- The words that are still to be sent, up to the first one that is too long. -/
def Outcome.accepted (delimiter : β → Bool) (limit : Nat) : Outcome β → List (List β)
  | .send word file => word :: acceptedBy delimiter limit file
  | .sendLast word => [word]
  | .finish => []
  | .read file word => acceptedBy delimiter limit (word ++ file)
  | .refuse => []

/-- No word that is still to be sent is too long. -/
def Outcome.Fits (delimiter : β → Bool) (limit : Nat) : Outcome β → Prop
  | .send _ file => FitsBy delimiter limit file
  | .sendLast _ => True
  | .finish => True
  | .read file word => FitsBy delimiter limit (word ++ file)
  | .refuse => False

/-- The next letter of `file`, for a reader that holds `word` and has room for `limit`
letters. -/
def readNext (delimiter : β → Bool) (limit : Nat) : List β → List β → Outcome β
  | [], word => if word.length > 0 then .sendLast word else .finish
  | letter :: file, word =>
      if delimiter letter then
        if word.length > 0 then .send word file else .read file word
      else if word.length ≥ limit then .refuse
      else .read file (word ++ [letter])

/-- When a reader does what. -/
inductive Reads (delimiter : β → Bool) (limit : Nat) : List β → List β → Outcome β → Prop
  | send {letter : β} {file word : List β} (delimits : delimiter letter = true)
      (nonempty : word ≠ []) : Reads delimiter limit (letter :: file) word (.send word file)
  | skip {letter : β} {file : List β} (delimits : delimiter letter = true) :
      Reads delimiter limit (letter :: file) [] (.read file [])
  | refuse {letter : β} {file word : List β} (ordinary : delimiter letter = false)
      (full : limit ≤ word.length) : Reads delimiter limit (letter :: file) word .refuse
  | collect {letter : β} {file word : List β} (ordinary : delimiter letter = false)
      (room : word.length < limit) :
      Reads delimiter limit (letter :: file) word (.read file (word ++ [letter]))
  | sendLast {word : List β} (nonempty : word ≠ []) :
      Reads delimiter limit [] word (.sendLast word)
  | finish : Reads delimiter limit [] [] .finish

theorem reads_readNext (delimiter : β → Bool) (limit : Nat) (file word : List β) :
    Reads delimiter limit file word (readNext delimiter limit file word) := by
  cases file with
  | nil =>
      cases word with
      | nil => exact .finish
      | cons first word => exact .sendLast (List.cons_ne_nil first word)
  | cons letter file =>
      cases delimits : delimiter letter with
      | true =>
          rw [readNext, if_pos delimits]
          cases word with
          | nil => exact .skip delimits
          | cons first word => exact .send delimits (List.cons_ne_nil first word)
      | false =>
          rw [readNext, delimits, if_neg Bool.false_ne_true]
          by_cases full : word.length ≥ limit
          · rw [if_pos full]
            exact .refuse delimits full
          · rw [if_neg full]
            exact .collect delimits (Nat.lt_of_not_le full)

namespace Reads

variable {delimiter : β → Bool} {limit : Nat} {file word : List β} {outcome : Outcome β}

/-- The words of what the reader holds and has not read stay the same. -/
theorem words_eq (reads : Reads delimiter limit file word outcome)
    (letters : ∀ letter ∈ word, delimiter letter = false) (accepted : outcome ≠ .refuse) :
    outcome.words delimiter = wordsBy delimiter (word ++ file) := by
  cases reads with
  | send delimits nonempty =>
      rw [wordsBy_append_cons word _ delimits, wordsBy_eq_singleton nonempty letters]
      rfl
  | skip delimits =>
      rw [wordsBy_append_cons [] _ delimits, wordsBy_nil]
      rfl
  | refuse => exact absurd rfl accepted
  | collect => rw [Outcome.words, List.append_assoc, List.singleton_append]
  | sendLast nonempty =>
      rw [List.append_nil, wordsBy_eq_singleton nonempty letters]
      rfl
  | finish => rw [List.append_nil, wordsBy_nil, Outcome.words]

/-- A letter is refused only in a word that is too long. -/
theorem tooLong (reads : Reads delimiter limit file word .refuse)
    (letters : ∀ letter ∈ word, delimiter letter = false) :
    ∃ first rest, wordsBy delimiter (word ++ file) = first :: rest ∧ limit < first.length := by
  cases reads with
  | @refuse letter file _ ordinary full =>
      obtain ⟨more, rest, split⟩ :=
        exists_wordsBy_append (by simp) (letters_concat letters ordinary) file
      rw [List.append_assoc, List.singleton_append] at split
      refine ⟨_, rest, split, ?_⟩
      rw [List.length_append, List.length_append, List.length_singleton]
      omega

/-- What the words are that are still to be sent. -/
theorem wordsBy_eq (reads : Reads delimiter limit file word outcome)
    (letters : ∀ letter ∈ word, delimiter letter = false) (short : word.length ≤ limit) :
    acceptedBy delimiter limit (word ++ file) = outcome.accepted delimiter limit ∧
      (FitsBy delimiter limit (word ++ file) ↔ outcome.Fits delimiter limit) := by
  by_cases refused : outcome = .refuse
  · subst refused
    obtain ⟨first, rest, split, longer⟩ := reads.tooLong letters
    rw [acceptedBy, FitsBy, split, List.takeWhile_cons_of_neg (by simpa using longer)]
    exact ⟨rfl, iff_of_false (fun fits => by have := fits first List.mem_cons_self; omega) id⟩
  · have words := reads.words_eq letters refused
    rw [acceptedBy, FitsBy, ← words]
    cases reads with
    | send =>
        rw [Outcome.words, List.takeWhile_cons_of_pos (by simpa using short), List.forall_mem_cons]
        exact ⟨rfl, and_iff_right short⟩
    | sendLast =>
        rw [Outcome.words, List.takeWhile_cons_of_pos (by simpa using short), List.forall_mem_cons]
        exact ⟨rfl, iff_of_true ⟨short, List.forall_mem_nil _⟩ trivial⟩
    | finish => exact ⟨rfl, iff_of_true (List.forall_mem_nil _) trivial⟩
    | refuse => exact absurd rfl refused
    | skip => exact ⟨rfl, Iff.rfl⟩
    | collect => exact ⟨rfl, Iff.rfl⟩

/-- The letters of words that fit are not refused. -/
theorem accepted (reads : Reads delimiter limit file word outcome)
    (letters : ∀ letter ∈ word, delimiter letter = false)
    (fits : ∀ other ∈ wordsBy delimiter (word ++ file), other.length ≤ limit) :
    outcome ≠ .refuse := by
  rintro rfl
  obtain ⟨first, rest, split, longer⟩ := reads.tooLong letters
  have bound := fits first (by rw [split]; exact List.mem_cons_self)
  omega

/-- The reader holds no delimiter. -/
theorem letters {file' word' : List β} (reads : Reads delimiter limit file word (.read file' word'))
    (letters : ∀ letter ∈ word, delimiter letter = false) :
    ∀ letter ∈ word', delimiter letter = false := by
  cases reads with
  | skip delimits => exact letters
  | collect ordinary room => exact letters_concat letters ordinary

end Reads

/-- Space, newline and tab. -/
def isDelimiter (byte : UInt8) : Bool :=
  byte == 32 || byte == 10 || byte == 9

/-- Accepted words are words that fit. -/
theorem of_mem_acceptedBy {delimiter : β → Bool} {limit : Nat} {file word : List β}
    (member : word ∈ acceptedBy delimiter limit file) : word ≠ [] ∧ word.length ≤ limit := by
  have fits := List.mem_takeWhile_imp member
  exact ⟨ne_nil_of_mem_wordsBy ((List.takeWhile_sublist _).mem member), by simpa using fits⟩

/-- If all words fit, all are accepted. -/
theorem FitsBy.acceptedBy_eq {delimiter : β → Bool} {limit : Nat} {file : List β}
    (fits : FitsBy delimiter limit file) :
    acceptedBy delimiter limit file = wordsBy delimiter file :=
  List.takeWhile_eq_self_iff.mpr fun word member => decide_eq_true (fits word member)

/-- The words of a file. -/
def wordsOf (file : List UInt8) : List (List UInt8) :=
  wordsBy isDelimiter file

end CExamples.Word
