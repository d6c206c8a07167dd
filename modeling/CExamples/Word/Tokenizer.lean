import CExamples.Program.Array
import CExamples.Word.Lines

/-!
# Cutting a string in place

`strtok_r` works on the block of the string that it is given: it stores a zero over the
delimiter behind a word, and remembers where the rest begins.  It stays inside the block,
and the words that it hands out are those that it takes from the text as a list.
-/

namespace CExamples.Word

open CExamples.Program

variable {κ σ : Type}

/-- A pointer is moved on to the first byte that `stop` holds of. -/
def seek (stop : UInt8 → Bool) : (rest : List UInt8) → (index : Nat) → Prog κ σ Nat
  | [], _ => throw .fault
  | byte :: rest, index => if stop byte then pure index else seek stop rest (index + 1)

/-- The block of a string, and where the next call begins. -/
structure Cut where
  block : List UInt8
  saved : Nat

/-- `strtok_r(NULL, delimiters, &saveptr)`: where the word begins, unless it returns `NULL`. -/
def strtokRInPlace (delimiter : UInt8 → Bool) (cut : Cut) : Prog κ σ (Option Nat × Cut) := do
  let start ← seek (fun byte => !delimiter byte) (cut.block.drop cut.saved) cut.saved
  let first ← load cut.block start
  if first = 0 then pure (none, { cut with saved := start })
  else do
    let stop ← seek (fun byte => byte = 0 || delimiter byte) (cut.block.drop start) start
    let last ← load cut.block stop
    if last = 0 then pure (some start, { cut with saved := stop })
    else do
      let block ← store cut.block stop 0
      pure (some start, { block := block, saved := stop + 1 })

/-- The string at a pointer; it may not go on beyond the block. -/
def stringAt (block : List UInt8) (index : Nat) : Prog κ σ (List UInt8) :=
  if 0 ∈ block.drop index then pure (cString (block.drop index)) else throw .fault

/-- The text that is left for the next call. -/
structure Cut.Leaves (cut : Cut) (text : List UInt8) : Prop where
  stored : ∃ before behind, cut.block = before ++ text ++ 0 :: behind ∧ before.length = cut.saved
  noZero : 0 ∉ text

/-- The bytes that are passed over, and the one that stops the pointer. -/
theorem seek_eq_pure {stop : UInt8 → Bool} {passed : List UInt8} {last : UInt8}
    (goesOn : ∀ byte ∈ passed, stop byte = false) (stops : stop last = true)
    (rest : List UInt8) (index : Nat) :
    (seek stop (passed ++ last :: rest) index : Prog κ σ Nat) = pure (index + passed.length) := by
  induction passed generalizing index with
  | nil => exact if_pos stops
  | cons byte passed ih =>
      have both := List.forall_mem_cons.mp goesOn
      rw [List.cons_append, seek, if_neg (by simp [both.1]), ih both.2, List.length_cons,
        Nat.add_assoc, Nat.add_comm 1]

/-- The string in front of a terminator. -/
theorem stringAt_eq_pure {block before text behind : List UInt8} (noZero : 0 ∉ text)
    (stored : block = before ++ text ++ 0 :: behind) :
    (stringAt block before.length : Prog κ σ (List UInt8)) = pure text := by
  have there : block.drop before.length = text ++ 0 :: behind := by
    rw [stored, List.append_assoc, List.drop_left]
  rw [stringAt, there, if_pos (by simp), cString_append_zero, cString_eq_self noZero]

section Tokens

variable {delimiter : UInt8 → Bool}

/-- The delimiters in front of a word, and what comes behind them. -/
theorem exists_passed (delimiter : UInt8 → Bool) (text : List UInt8) :
    ∃ passed, text = passed ++ text.dropWhile delimiter ∧
      ∀ byte ∈ passed, delimiter byte = true :=
  ⟨text.takeWhile delimiter, List.takeWhile_append_dropWhile.symm, fun _ member =>
    List.mem_takeWhile_imp member⟩

/-- What a call finds behind the delimiters: the terminator, or a word in front of the
terminator or of another delimiter. -/
inductive Found (delimiter : UInt8 → Bool) (text : List UInt8) : Prop
  | nothing (passed : ∀ byte ∈ text, delimiter byte = true) (ended : strtokR delimiter text = none)
  | last (passed word : List UInt8) (split : text = passed ++ word)
      (delimits : ∀ byte ∈ passed, delimiter byte = true) (nonempty : word ≠ [])
      (letters : ∀ byte ∈ word, delimiter byte = false)
      (taken : strtokR delimiter text = some (word, []))
  | between (passed word rest : List UInt8) (next : UInt8)
      (split : text = passed ++ word ++ next :: rest)
      (delimits : ∀ byte ∈ passed, delimiter byte = true) (nonempty : word ≠ [])
      (letters : ∀ byte ∈ word, delimiter byte = false) (nextDelimits : delimiter next = true)
      (taken : strtokR delimiter text = some (word, rest))

theorem found (delimiter : UInt8 → Bool) (text : List UInt8) : Found delimiter text := by
  rcases exists_passed delimiter text with ⟨passed, split, delimits⟩
  have first := List.head?_dropWhile_not delimiter text
  have result : strtokR delimiter text = if text.dropWhile delimiter = [] then none
      else some ((text.dropWhile delimiter).takeWhile fun byte => !delimiter byte,
        ((text.dropWhile delimiter).dropWhile fun byte => !delimiter byte).tail) := rfl
  generalize text.dropWhile delimiter = start at *
  by_cases empty : start = []
  · rw [if_pos empty] at result
    rw [empty, List.append_nil] at split
    exact .nothing (split ▸ delimits) result
  · rw [if_neg empty] at result
    rcases List.exists_cons_of_ne_nil empty with ⟨byte, more, startEq⟩
    have ordinary : delimiter byte = false := by
      rw [startEq] at first
      exact first
    have letters (letter : UInt8) (member : letter ∈ start.takeWhile fun byte => !delimiter byte) :
        delimiter letter = false := by
      simpa using List.mem_takeWhile_imp member
    have nonempty : (start.takeWhile fun byte => !delimiter byte) ≠ [] := by
      rw [startEq, List.takeWhile_cons_of_pos (by simp [ordinary])]
      exact List.cons_ne_nil _ _
    have ends := List.head?_dropWhile_not (fun byte => !delimiter byte) start
    have whole := List.takeWhile_append_dropWhile (p := fun byte => !delimiter byte) (l := start)
    generalize start.takeWhile (fun byte => !delimiter byte) = word at *
    generalize start.dropWhile (fun byte => !delimiter byte) = behind at *
    cases behind with
    | nil =>
        rw [List.append_nil] at whole
        exact .last passed word (whole ▸ split) delimits nonempty letters result
    | cons next rest =>
        refine .between passed word rest next ?_ delimits nonempty letters (by simpa using ends)
          result
        rw [List.append_assoc, whole, split]

/-- The words have no delimiters. -/
theorem letters_of_mem_wordsBy {text word : List UInt8} (member : word ∈ wordsBy delimiter text) :
    ∀ byte ∈ word, delimiter byte = false := by
  induction length : text.length using Nat.strongRecOn generalizing text with
  | ind _ ih =>
      cases found delimiter text with
      | nothing passed ended =>
          rw [streams_strtokR.ended text ended] at member
          cases member
      | last passed first split delimits nonempty letters taken
      | between passed first rest next split delimits nonempty letters nextDelimits taken =>
          rcases streams_strtokR.taken text _ _ taken with ⟨wordsEq, smaller⟩
          rw [wordsEq] at member
          rcases List.mem_cons.mp member with rfl | later
          · exact letters
          · exact ih _ (length ▸ smaller) later rfl

/-- Words that are joined by a delimiter are the words of what they are joined to. -/
theorem wordsBy_intercalate {separator : UInt8} (separates : delimiter separator = true)
    {words : List (List UInt8)} (nonempty : ∀ word ∈ words, word ≠ [])
    (letters : ∀ word ∈ words, ∀ byte ∈ word, delimiter byte = false) :
    wordsBy delimiter ([separator].intercalate words) = words := by
  induction words with
  | nil => exact wordsBy_nil
  | cons word words ih =>
      have some := List.forall_mem_cons.mp nonempty
      have ordinary := List.forall_mem_cons.mp letters
      have single := wordsBy_eq_singleton some.1 ordinary.1
      cases words with
      | nil => rw [List.intercalate_singleton, single]
      | cons other words =>
          rw [List.intercalate_cons_cons, List.append_assoc, List.singleton_append,
            wordsBy_append_cons word _ separates, single, ih some.2 ordinary.2,
            List.singleton_append]

/-- The bytes at a position of a block. -/
theorem drop_of_stored {block before behind : List UInt8} {index : Nat}
    (stored : block = before ++ behind) (length : before.length = index) :
    block.drop index = behind := by
  rw [stored, ← length, List.drop_left]

theorem getElem?_of_stored {block before behind : List UInt8} {byte : UInt8} {index : Nat}
    (stored : block = before ++ byte :: behind) (length : before.length = index) :
    block[index]? = some byte := by
  rw [stored, ← length, List.getElem?_append_right (Nat.le_refl _), Nat.sub_self]
  rfl

variable {cut : Cut} {text : List UInt8}

/-- Where no word is left, the terminator is found. -/
theorem Cut.Leaves.ended (leaves : cut.Leaves text) (ordinary : delimiter 0 = false)
    (ended : strtokR delimiter text = none) :
    ∃ after : Cut, (strtokRInPlace delimiter cut : Prog κ σ (Option Nat × Cut)) =
      pure (none, after) := by
  rcases leaves.stored with ⟨before, behind, stored, length⟩
  cases found delimiter text with
  | last _ _ _ _ _ _ taken | between _ _ _ _ _ _ _ _ _ taken =>
      rw [ended] at taken
      cases taken
  | nothing passed _ =>
      have rest : cut.block.drop cut.saved = text ++ 0 :: behind := by
        rw [List.append_assoc] at stored
        exact drop_of_stored stored length
      have first : cut.block[cut.saved + text.length]? = some 0 :=
        getElem?_of_stored stored (by rw [List.length_append, length])
      refine ⟨{ cut with saved := cut.saved + text.length }, ?_⟩
      rw [strtokRInPlace, rest,
        seek_eq_pure (fun byte member => by simp [passed byte member]) (by simp [ordinary]),
        pure_bind, load_eq_pure first, pure_bind, if_pos rfl]

/-- A call that finds a word, in front of the terminator or of another delimiter. -/
theorem strtokRInPlace_eq {before passed word behind : List UInt8} {last : UInt8}
    (stored : cut.block = before ++ passed ++ word ++ last :: behind)
    (length : before.length = cut.saved) (delimits : ∀ byte ∈ passed, delimiter byte = true)
    (nonempty : word ≠ []) (letters : ∀ byte ∈ word, byte ≠ 0 ∧ delimiter byte = false)
    (stops : last = 0 ∨ delimiter last = true) :
    (strtokRInPlace delimiter cut : Prog κ σ (Option Nat × Cut)) =
      pure (some (before ++ passed).length,
        if last = 0 then { cut with saved := (before ++ passed ++ word).length }
        else { block := before ++ passed ++ word ++ 0 :: behind,
               saved := (before ++ passed ++ word).length + 1 }) := by
  rcases List.exists_cons_of_ne_nil nonempty with ⟨first, more, wordEq⟩
  have firstLetter := letters first (by rw [wordEq]; exact List.mem_cons_self)
  have rest : cut.block.drop cut.saved = passed ++ first :: (more ++ last :: behind) := by
    rw [wordEq, List.append_assoc, List.append_assoc] at stored
    exact drop_of_stored stored length
  have atStart : cut.block[(before ++ passed).length]? = some first := by
    rw [wordEq, List.append_assoc, List.cons_append] at stored
    exact getElem?_of_stored stored rfl
  have fromStart : cut.block.drop (before ++ passed).length = word ++ last :: behind := by
    rw [List.append_assoc (before ++ passed)] at stored
    exact drop_of_stored stored rfl
  have atStop : cut.block[(before ++ passed ++ word).length]? = some last :=
    getElem?_of_stored stored rfl
  have inside : (before ++ passed ++ word).length < cut.block.length :=
    (List.getElem?_eq_some_iff.mp atStop).1
  rw [strtokRInPlace, rest,
    seek_eq_pure (fun byte member => by simp [delimits byte member]) (by simp [firstLetter.2]),
    pure_bind, ← length, ← List.length_append, load_eq_pure atStart, pure_bind,
    if_neg firstLetter.1, fromStart,
    seek_eq_pure (fun byte member => by simp [letters byte member])
      (by rcases stops with zero | delimits <;> simp [*]),
    pure_bind, ← List.length_append, load_eq_pure atStop, pure_bind]
  by_cases zero : last = 0
  · rw [if_pos zero, if_pos zero]
  · rw [if_neg zero, if_neg zero, store_eq_pure 0 inside, pure_bind, stored,
      List.set_append_right _ _ (Nat.le_refl _), Nat.sub_self]
    rfl

/-- A word is handed out with a terminator behind it, and the rest is left. -/
theorem Cut.Leaves.taken (leaves : cut.Leaves text) {word rest : List UInt8}
    (taken : strtokR delimiter text = some (word, rest)) :
    ∃ start after, (strtokRInPlace delimiter cut : Prog κ σ (Option Nat × Cut)) =
        pure (some start, after) ∧
      after.Leaves rest ∧ (stringAt after.block start : Prog κ σ (List UInt8)) = pure word := by
  rcases leaves.stored with ⟨before, behind, stored, length⟩
  have noZero := leaves.noZero
  cases found delimiter text with
  | nothing _ ended =>
      rw [ended] at taken
      cases taken
  | last passed word split delimits nonempty letters result =>
      rcases Prod.mk.inj (Option.some.inj (result.symm.trans taken)) with ⟨rfl, rfl⟩
      rw [split] at noZero
      rw [split, ← List.append_assoc] at stored
      have wordNoZero : 0 ∉ word := fun zero => noZero (List.mem_append_right _ zero)
      have run := @strtokRInPlace_eq κ σ delimiter cut before passed word behind 0 stored length
        delimits nonempty (fun byte member => ⟨ne_of_mem_of_not_mem member wordNoZero,
          letters byte member⟩) (Or.inl rfl)
      rw [if_pos rfl] at run
      refine ⟨_, _, run, ⟨⟨before ++ passed ++ word, behind, ?_, rfl⟩, List.not_mem_nil⟩,
        stringAt_eq_pure wordNoZero stored⟩
      rw [List.append_nil]
      exact stored
  | between passed word rest next split delimits nonempty letters nextDelimits result =>
      rcases Prod.mk.inj (Option.some.inj (result.symm.trans taken)) with ⟨rfl, rfl⟩
      rw [split] at noZero
      have nonzero : next ≠ 0 := fun zero => noZero (by simp [zero])
      have wordNoZero : 0 ∉ word := fun zero => noZero (by simp [zero])
      have stored : cut.block = before ++ passed ++ word ++ next :: (rest ++ 0 :: behind) := by
        rw [stored, split]
        simp only [List.append_assoc, List.cons_append]
      have run := @strtokRInPlace_eq κ σ delimiter cut before passed word (rest ++ 0 :: behind)
        next stored length delimits nonempty (fun byte member =>
          ⟨ne_of_mem_of_not_mem member wordNoZero, letters byte member⟩) (Or.inr nextDelimits)
      rw [if_neg nonzero] at run
      refine ⟨_, _, run, ⟨⟨before ++ passed ++ word ++ [0], behind, ?_, ?_⟩, ?_⟩,
        stringAt_eq_pure wordNoZero rfl⟩
      · simp only [List.append_assoc, List.cons_append, List.nil_append]
      · rw [List.length_append, List.length_singleton]
      · exact fun zero => noZero (by simp [zero])

end Tokens

end CExamples.Word
