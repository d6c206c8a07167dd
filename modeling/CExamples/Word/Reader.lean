import CExamples.Transition.Core
import CExamples.Word.Split

/-!
# Readers that collect words

A process that reads a file letter by letter collects the letters of a word in a
buffer of `limit` letters.  A delimiter ends the word, which is then sent; a
letter that does not fit any more ends the process.  Whatever else goes on, such
a reader overflows on every file that has a word longer than its buffer.
-/

namespace CExamples.Word

open CExamples.Transition

universe u v w

variable {β : Type u} {σ : Type v} {α : Type w}

/-- From a state in which the rest `file` is unread and `word` is collected, the
system has a run in which the next letter is dealt with. -/
structure Reader (next : Step σ α) (delimiter : β → Bool) (limit : Nat)
    (reading : List β → List β → σ → Prop) (overflow : σ → Prop) : Prop where
  /-- A delimiter before a word is skipped. -/
  skip : ∀ letter file state, delimiter letter = true → reading (letter :: file) [] state →
    ∃ later, Reachable next state later ∧ reading file [] later
  /-- A delimiter after a word has it sent. -/
  send : ∀ letter file word state, delimiter letter = true → word ≠ [] →
    (∀ other ∈ word, delimiter other = false) → word.length ≤ limit →
    reading (letter :: file) word state →
    ∃ later, Reachable next state later ∧ reading file [] later
  /-- A letter that fits is collected. -/
  collect : ∀ letter file word state, delimiter letter = false → word.length < limit →
    reading (letter :: file) word state →
    ∃ later, Reachable next state later ∧ reading file (word ++ [letter]) later
  /-- A letter that does not fit ends the process. -/
  refuse : ∀ letter file word state, delimiter letter = false → word.length = limit →
    (∀ other ∈ word, delimiter other = false) → reading (letter :: file) word state →
    ∃ later, Reachable next state later ∧ overflow later

/-- A reader overflows on a file with a word that is too long. -/
theorem Reader.overflows {next : Step σ α} {delimiter : β → Bool} {limit : Nat}
    {reading : List β → List β → σ → Prop} {overflow : σ → Prop}
    (reader : Reader next delimiter limit reading overflow) {file word : List β} {state : σ}
    (letters : ∀ letter ∈ word, delimiter letter = false) (fits : word.length ≤ limit)
    (tooLong : ∃ long ∈ wordsBy delimiter (word ++ file), limit < long.length)
    (reads : reading file word state) :
    ∃ later, Reachable next state later ∧ overflow later := by
  obtain ⟨long, member, longer⟩ := tooLong
  induction file generalizing word state with
  | nil =>
      have outcomes := reads_readNext delimiter limit [] word
      generalize readNext delimiter limit [] word = outcome at outcomes
      cases outcomes with
      | sendLast nonempty =>
          rw [List.append_nil, wordsBy_eq_singleton nonempty letters] at member
          rw [List.mem_singleton.mp member] at longer
          omega
      | finish =>
          rw [List.append_nil, wordsBy_nil] at member
          cases member
  | cons letter file ih =>
      have continues {middle : σ} {kept : List β} (first : Reachable next state middle)
          (middleReads : reading file kept middle)
          (keptLetters : ∀ letter ∈ kept, delimiter letter = false)
          (keptFits : kept.length ≤ limit) (rest : long ∈ wordsBy delimiter (kept ++ file)) :
          ∃ later, Reachable next state later ∧ overflow later := by
        obtain ⟨later, second, overflown⟩ := ih keptLetters keptFits middleReads rest
        exact ⟨later, first.trans second, overflown⟩
      have outcomes := reads_readNext delimiter limit (letter :: file) word
      generalize readNext delimiter limit (letter :: file) word = outcome at outcomes
      cases outcomes with
      | send delimits nonempty =>
          obtain ⟨middle, first, middleReads⟩ :=
            reader.send letter file word state delimits nonempty letters fits reads
          rw [wordsBy_append_cons word file delimits,
            wordsBy_eq_singleton nonempty letters] at member
          rcases List.mem_append.mp member with same | rest
          · rw [List.mem_singleton.mp same] at longer
            omega
          · exact continues first middleReads (List.forall_mem_nil _) (Nat.zero_le limit) rest
      | skip delimits =>
          obtain ⟨middle, first, middleReads⟩ := reader.skip letter file state delimits reads
          rw [wordsBy_append_cons [] file delimits, wordsBy_nil] at member
          exact continues first middleReads letters fits member
      | refuse ordinary full =>
          exact reader.refuse letter file word state ordinary (Nat.le_antisymm fits full) letters
            reads
      | collect ordinary room =>
          obtain ⟨middle, first, middleReads⟩ :=
            reader.collect letter file word state ordinary room reads
          apply continues first middleReads (letters_concat letters ordinary)
          · rw [List.length_append, List.length_singleton]
            exact room
          · rwa [List.append_assoc, List.singleton_append]

/-- A reader collects every word before the first one that is too long. -/
theorem Reader.completes {next : Step σ α} {delimiter : β → Bool} {limit : Nat}
    {reading : List β → List β → σ → Prop} {overflow : σ → Prop}
    (reader : Reader next delimiter limit reading overflow) {file word target : List β} {state : σ}
    (letters : ∀ letter ∈ word, delimiter letter = false) (fits : word.length ≤ limit)
    (member : target ∈ acceptedBy delimiter limit (word ++ file))
    (reads : reading file word state) :
    ∃ rest later, Reachable next state later ∧ reading rest target later ∧
      ∀ letter ∈ rest.head?, delimiter letter = true := by
  induction file generalizing word state with
  | nil =>
      have outcomes := reads_readNext delimiter limit [] word
      generalize readNext delimiter limit [] word = outcome at outcomes
      rw [(outcomes.wordsBy_eq letters fits).1] at member
      cases outcomes with
      | sendLast nonempty =>
          rw [List.mem_singleton.mp member]
          exact ⟨[], state, Reachable.refl next state, reads, nofun⟩
      | finish => cases member
  | cons letter file ih =>
      have continues {middle : σ} {kept : List β} (first : Reachable next state middle)
          (middleReads : reading file kept middle)
          (keptLetters : ∀ letter ∈ kept, delimiter letter = false)
          (keptFits : kept.length ≤ limit)
          (later : target ∈ acceptedBy delimiter limit (kept ++ file)) :
          ∃ rest later, Reachable next state later ∧ reading rest target later ∧
            ∀ letter ∈ rest.head?, delimiter letter = true := by
        obtain ⟨rest, last, second, completed⟩ := ih keptLetters keptFits later middleReads
        exact ⟨rest, last, first.trans second, completed⟩
      have outcomes := reads_readNext delimiter limit (letter :: file) word
      generalize readNext delimiter limit (letter :: file) word = outcome at outcomes
      rw [(outcomes.wordsBy_eq letters fits).1] at member
      cases outcomes with
      | send delimits nonempty =>
          rcases List.mem_cons.mp member with rfl | later
          · refine ⟨letter :: file, state, Reachable.refl next state, reads, ?_⟩
            rintro _ ⟨⟩
            exact delimits
          · obtain ⟨middle, first, middleReads⟩ :=
              reader.send letter file word state delimits nonempty letters fits reads
            exact continues first middleReads (List.forall_mem_nil _) (Nat.zero_le limit) later
      | skip delimits =>
          obtain ⟨middle, first, middleReads⟩ := reader.skip letter file state delimits reads
          exact continues first middleReads letters fits member
      | refuse ordinary full => cases member
      | collect ordinary room =>
          obtain ⟨middle, first, middleReads⟩ :=
            reader.collect letter file word state ordinary room reads
          apply continues first middleReads (letters_concat letters ordinary) _ member
          rw [List.length_append, List.length_singleton]
          exact room

end CExamples.Word
