import CExamples.CommandLine.Parsers
import CExamples.Program.Blocks
import CExamples.Word.Tokenizer

/-!
# The words of an operand

`string-processing/strtok_r/main.c`.  `main` cuts a copy of its operand into words with
`strtok_r`, which writes into the copy, and releases it in the end.
-/

namespace CExamples.StringProcessing.StrtokR

open CExamples.CommandLine
open CExamples.Program
open CExamples.Word

/-- A line on stdout. -/
inductive Line
  /-- `Memory allocation failed` -/
  | noMemory
  /-- `Tokenized words:` -/
  | heading
  /-- `Token: %s` -/
  | token (text : List UInt8)
  deriving DecidableEq

/-- The lines that were printed, and the blocks that were allocated. -/
structure World where
  lines : List Line
  blocks : List Block
  deriving DecidableEq

/-- The program. -/
abbrev Run := Prog Empty World

def print (line : Line) : Run Unit :=
  modify fun world => { world with lines := world.lines ++ [line] }

/-- `strdup(string)`: the number of the block and its bytes, unless there is no memory. -/
def strdup (allocates : Bool) (string : Text) : Run (Option (Nat × List UInt8)) := do
  let world ← get
  match realloc world.blocks none (UInt64.ofNat (string.bytes.length + 1)) !allocates with
  | (none, _) => pure none
  | (some number, blocks) => do
      set { world with blocks := blocks }
      pure (some (number, string.bytes ++ [0]))

/-- `free(token_copy)` -/
def free (number : Nat) : Run Unit :=
  modify fun world => { world with blocks := Program.free world.blocks (some number) }

/-- The byte of `delimiter`, a blank. -/
def isBlank (byte : UInt8) : Bool :=
  byte == 32

/-- A pass of the loop over the tokens. -/
def tokenRound : Option Nat × Cut → Run ((Option Nat × Cut) ⊕ Unit)
  | (none, _) => pure (.inr ())
  | (some token, cut) => do
      let text ← stringAt cut.block token
      print (.token text)
      let next ← strtokRInPlace isBlank cut
      pure (.inl next)

/-- `main` behind `handle_arguments`: what it returns. -/
def tokenize (allocates : Bool) (string : Text) : Run Nat := do
  match ← strdup allocates string with
  | none => do
      print .noMemory
      pure 1
  | some (number, tokenCopy) => do
      let token ← strtokRInPlace isBlank { block := tokenCopy, saved := 0 }
      print .heading
      loop tokenRound (string.bytes.length + 1) token
      free number
      pure 0

/-- What is left of a run. -/
abbrev Outcome := EStateM.Result (Halt Empty) World Nat

/-- Nothing was printed or allocated. -/
def World.initial : World where
  lines := []
  blocks := []

/-- `handle_arguments`, and `main` behind it -/
def body (allocates : Bool) (arguments : Arguments) : Except Usage Outcome := do
  let string ← demand arguments.operands[0]? "The string is required."
  pure (tokenize allocates string .initial)

/-- `parse_arguments` -/
def parser : Parser :=
  single "The string is required"

/-- The words of a string between its blanks. -/
def words (string : Text) : List (List UInt8) :=
  wordsBy isBlank string.bytes

/-- The block of the copy, released once. -/
def released (string : Text) : Block where
  size := UInt64.ofNat (string.bytes.length + 1)
  releases := 1

/-- What comes of one operand. -/
def outcome (allocates : Bool) (string : Text) : Outcome :=
  if allocates then
    .ok 0 { lines := .heading :: (words string).map .token, blocks := [released string] }
  else .ok 1 { lines := [.noMemory], blocks := [] }

/-- What the program promises. -/
structure Tokenizes (order : Order) (allocates : Bool) (argv : List Text) : Prop where
  /-- It prints the words of its only operand, in order. -/
  ends : ∀ result, Ends order parser (body allocates) argv result ↔
    TakesOne order "The string is required" (fun string => .ok (outcome allocates string))
      (argv.drop 1) result
  /-- The words, with blanks between them, have the same words. -/
  again : ∀ string joined : Text, joined.bytes = [32].intercalate (words string) →
    words joined = words string

/-! ## The loop -/

/-- A call returns. -/
theorem exists_next {text : List UInt8} {cut : Cut} (leaves : cut.Leaves text) :
    ∃ next, (strtokRInPlace isBlank cut : Run (Option Nat × Cut)) = pure next := by
  cases taken : strtokR isBlank text with
  | none =>
      rcases leaves.ended rfl taken with ⟨after, run⟩
      exact ⟨_, run⟩
  | some result =>
      rcases leaves.taken taken with ⟨start, after, run, _⟩
      exact ⟨_, run⟩

theorem pure_inj {α : Type} {value other : α} (same : (pure value : Run α) = pure other) :
    value = other :=
  (EStateM.Result.ok.inj (congrFun same .initial)).1

/-- The loop prints the words of the text that was left for the call in front of it. -/
theorem loop_tokenRound {text : List UInt8} {fuel : Nat} (enough : text.length < fuel) {cut : Cut}
    {next : Option Nat × Cut} (leaves : cut.Leaves text)
    (run : (strtokRInPlace isBlank cut : Run (Option Nat × Cut)) = pure next) (world : World) :
    loop tokenRound fuel next world =
      .ok () { world with lines := world.lines ++ (wordsBy isBlank text).map .token } := by
  induction fuel generalizing text cut next world with
  | zero => cases enough
  | succ fuel ih =>
      cases taken : strtokR isBlank text with
      | none =>
          rcases leaves.ended rfl taken with ⟨after, ended⟩
          cases pure_inj (run.symm.trans ended)
          rw [streams_strtokR.ended text taken, List.map_nil, List.append_nil]
          rfl
      | some result =>
          rcases leaves.taken taken with ⟨start, after, found, rest, printed⟩
          cases pure_inj (run.symm.trans found)
          rcases streams_strtokR.taken text _ _ taken with ⟨wordsEq, smaller⟩
          rcases exists_next rest with ⟨later, call⟩
          have round : tokenRound (some start, after) world = .ok (.inl later)
              { world with lines := world.lines ++ [.token result.1] } := by
            rw [tokenRound, printed, pure_bind, call]
            rfl
          have looped := ih (Nat.lt_of_lt_of_le smaller (Nat.le_of_lt_succ enough)) rest call
            { world with lines := world.lines ++ [.token result.1] }
          rw [wordsEq, List.map_cons]
          change EStateM.bind (tokenRound (some start, after)) _ world = _
          rw [EStateM.bind, round]
          change loop tokenRound fuel later _ = _
          rw [looped, List.append_assoc, List.singleton_append]

/-- The copy is cut into the words, and released. -/
theorem tokenize_eq (allocates : Bool) (string : Text) :
    tokenize allocates string .initial = outcome allocates string := by
  cases allocates with
  | false => rfl
  | true =>
      have leaves : (Cut.mk (string.bytes ++ [0]) 0).Leaves string.bytes :=
        ⟨⟨[], [], rfl, rfl⟩, string.noZero⟩
      rcases exists_next leaves with ⟨next, call⟩
      have looped := loop_tokenRound (Nat.lt_succ_self _) leaves call
        { lines := [.heading], blocks := [⟨UInt64.ofNat (string.bytes.length + 1), 0⟩] }
      change (strtokRInPlace isBlank ⟨string.bytes ++ [0], 0⟩ >>= _ : Run Nat) _ = _
      rw [call, pure_bind]
      change EStateM.bind (loop tokenRound (string.bytes.length + 1) next) _
        ⟨[.heading], [⟨UInt64.ofNat (string.bytes.length + 1), 0⟩]⟩ = _
      rw [EStateM.bind, looped]
      rfl

/-- Each command line. -/
theorem main_tokenizes (order : Order) (allocates : Bool) (argv : List Text) :
    Tokenizes order allocates argv := by
  constructor
  · intro result
    have same : (fun string => body allocates { settings := .initial, operands := [string] }) =
        fun string => .ok (outcome allocates string) := by
      funext string
      rw [← tokenize_eq]
      rfl
    rw [parser, single_ends_iff, same]
  · intro string joined bytesEq
    rw [words, bytesEq]
    apply wordsBy_intercalate rfl
    · exact fun word => ne_nil_of_mem_wordsBy
    · exact fun word => letters_of_mem_wordsBy

end CExamples.StringProcessing.StrtokR
