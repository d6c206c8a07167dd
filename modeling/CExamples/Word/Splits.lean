import CExamples.Word.Split
import Mathlib.Data.List.Induction

/-!
# Cutting a text into pieces

A text that is cut into pieces keeps its words exactly if no cut is between two
letters of one word.  A cut inside a word makes one word more, and no cut makes fewer.
-/

namespace CExamples.Word

universe u

variable {β : Type u} {delimiter : β → Bool}

/-- The cut between two pieces is inside a word. -/
def Splits (delimiter : β → Bool) (first second : List β) : Prop :=
  ∃ last next, first.getLast? = some last ∧ second.head? = some next ∧
    delimiter last = false ∧ delimiter next = false

/-- A text that ends with a letter ends with a word. -/
theorem exists_last_word (text : List β) {last : β} (ordinary : delimiter last = false) :
    ∃ before word, text ++ [last] = before ++ word ∧ word ≠ [] ∧
      (∀ letter ∈ word, delimiter letter = false) ∧
        ∀ rest, wordsBy delimiter (before ++ rest) =
          wordsBy delimiter before ++ wordsBy delimiter rest := by
  induction text using List.reverseRecOn generalizing last with
  | nil =>
      refine ⟨[], [last], rfl, List.cons_ne_nil last [], ?_, fun rest => by simp⟩
      intro letter member
      rwa [List.mem_singleton.mp member]
  | append_singleton text letter ih =>
      cases delimits : delimiter letter with
      | false =>
          obtain ⟨before, word, split, nonempty, letters, keeps⟩ := ih delimits
          refine ⟨before, word ++ [last], ?_, by simp, letters_concat letters ordinary, keeps⟩
          rw [split, List.append_assoc]
      | true =>
          refine ⟨text ++ [letter], [last], rfl, List.cons_ne_nil last [], ?_, ?_⟩
          · intro other member
            rwa [List.mem_singleton.mp member]
          · intro rest
            rw [List.append_assoc, List.singleton_append, wordsBy_append_cons text rest delimits,
              wordsBy_append_cons text [] delimits, wordsBy_nil, List.append_nil]

/-- A text that starts with letters starts with a word, whatever letters stand before
it. -/
theorem exists_first_word (text : List β) {word : List β} (nonempty : word ≠ [])
    (letters : ∀ letter ∈ word, delimiter letter = false) :
    ∃ more rest, ∀ before : List β, (∀ letter ∈ before, delimiter letter = false) →
      wordsBy delimiter (before ++ (word ++ text)) = (before ++ (word ++ more)) :: rest := by
  induction text generalizing word with
  | nil =>
      refine ⟨[], [], fun before beforeLetters => ?_⟩
      rw [List.append_nil]
      apply wordsBy_eq_singleton
      · simp [nonempty]
      · exact fun letter member => (List.mem_append.mp member).elim (beforeLetters letter)
          (letters letter)
  | cons letter text ih =>
      cases delimits : delimiter letter with
      | true =>
          refine ⟨[], wordsBy delimiter text, fun before beforeLetters => ?_⟩
          rw [← List.append_assoc, wordsBy_append_cons _ text delimits, List.append_nil,
            wordsBy_eq_singleton (by simp [nonempty])]
          · rfl
          · exact fun other member => (List.mem_append.mp member).elim (beforeLetters other)
              (letters other)
      | false =>
          obtain ⟨more, rest, split⟩ := ih (List.append_ne_nil_of_right_ne_nil word
            (List.cons_ne_nil letter [])) (letters_concat letters delimits)
          refine ⟨letter :: more, rest, fun before beforeLetters => ?_⟩
          simpa using split before beforeLetters

/-- A cut inside a word makes two words of it. -/
theorem Splits.words_eq {first second : List β} (splits : Splits delimiter first second) :
    ∃ before left right after, wordsBy delimiter first = before ++ [left] ∧
      wordsBy delimiter second = right :: after ∧
        wordsBy delimiter (first ++ second) = before ++ (left ++ right) :: after := by
  obtain ⟨last, next, isLast, isNext, lastOrdinary, nextOrdinary⟩ := splits
  obtain ⟨text, rfl⟩ := List.getLast?_eq_some_iff.mp isLast
  obtain ⟨rest, rfl⟩ := List.head?_eq_some_iff.mp isNext
  obtain ⟨before, word, split, nonempty, letters, keeps⟩ := exists_last_word text lastOrdinary
  have single : ∀ letter ∈ [next], delimiter letter = false := by
    intro letter member
    rwa [List.mem_singleton.mp member]
  obtain ⟨more, later, found⟩ := exists_first_word rest (List.cons_ne_nil next []) single
  have alone := found [] (List.forall_mem_nil _)
  have joined := found word letters
  simp only [List.nil_append, List.singleton_append] at alone joined
  refine ⟨wordsBy delimiter before, word, next :: more, later, ?_, alone, ?_⟩
  · rw [split, keeps, wordsBy_eq_singleton nonempty letters]
  · rw [split, List.append_assoc, keeps, joined]

/-- A cut inside a word makes one word more. -/
theorem Splits.length_eq {first second : List β} (splits : Splits delimiter first second) :
    (wordsBy delimiter first).length + (wordsBy delimiter second).length =
      (wordsBy delimiter (first ++ second)).length + 1 := by
  obtain ⟨before, left, right, after, firstEq, secondEq, wholeEq⟩ := splits.words_eq
  rw [firstEq, secondEq, wholeEq]
  simp only [List.length_append, List.length_cons, List.length_nil]
  omega

/-- Another cut keeps the words. -/
theorem wordsBy_append_of_not_splits {first second : List β}
    (whole : ¬Splits delimiter first second) :
    wordsBy delimiter (first ++ second) = wordsBy delimiter first ++ wordsBy delimiter second := by
  induction first using List.reverseRecOn with
  | nil => simp
  | append_singleton first last _ =>
      cases second with
      | nil => simp
      | cons next second =>
          cases lastDelimits : delimiter last with
          | true =>
              rw [List.append_assoc, List.singleton_append,
                wordsBy_append_cons first _ lastDelimits,
                wordsBy_append_cons first [] lastDelimits, wordsBy_nil, List.append_nil]
          | false =>
              cases nextDelimits : delimiter next with
              | true =>
                  rw [wordsBy_append_cons _ second nextDelimits, ← List.nil_append (next :: second),
                    wordsBy_append_cons [] second nextDelimits, wordsBy_nil, List.nil_append]
              | false =>
                  exact absurd ⟨last, next, by simp, rfl, lastDelimits, nextDelimits⟩ whole

/-- No cut makes a word longer. -/
theorem exists_length_le {first second word : List β}
    (member : word ∈ wordsBy delimiter first ++ wordsBy delimiter second) :
    ∃ whole ∈ wordsBy delimiter (first ++ second), word.length ≤ whole.length := by
  by_cases splits : Splits delimiter first second
  · obtain ⟨before, left, right, after, firstEq, secondEq, wholeEq⟩ := splits.words_eq
    rw [firstEq, secondEq] at member
    rw [wholeEq]
    simp only [List.mem_append, List.mem_cons, List.not_mem_nil, or_false] at member ⊢
    rcases member with (inBefore | rfl) | rfl | inAfter
    · exact ⟨word, Or.inl inBefore, Nat.le_refl _⟩
    · exact ⟨word ++ right, Or.inr (Or.inl rfl), by simp⟩
    · exact ⟨left ++ word, Or.inr (Or.inl rfl), by simp⟩
    · exact ⟨word, Or.inr (Or.inr inAfter), Nat.le_refl _⟩
  · rw [wordsBy_append_of_not_splits splits]
    exact ⟨word, member, Nat.le_refl _⟩

/-- No cut makes fewer words. -/
theorem length_wordsBy_append_le (first second : List β) :
    (wordsBy delimiter (first ++ second)).length ≤
      (wordsBy delimiter first).length + (wordsBy delimiter second).length := by
  by_cases splits : Splits delimiter first second
  · rw [splits.length_eq]
    exact Nat.le_succ _
  · exact Nat.le_of_eq (by rw [wordsBy_append_of_not_splits splits, List.length_append])

/-- Pieces that together have no fewer words than the text. -/
theorem append_eq_wordsBy_iff {first second : List β} {words : List (List β)}
    (many : (wordsBy delimiter second).length ≤ words.length) :
    wordsBy delimiter first ++ words = wordsBy delimiter (first ++ second) ↔
      ¬Splits delimiter first second ∧ words = wordsBy delimiter second := by
  constructor
  · intro same
    have lengths := congrArg List.length same
    rw [List.length_append] at lengths
    have whole : ¬Splits delimiter first second := by
      intro splits
      have more := splits.length_eq
      omega
    refine ⟨whole, ?_⟩
    rw [wordsBy_append_of_not_splits whole] at same
    exact List.append_cancel_left same
  · rintro ⟨whole, rfl⟩
    exact (wordsBy_append_of_not_splits whole).symm

end CExamples.Word
