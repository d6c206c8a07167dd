import CExamples.SharedMemory.Delivery

/-!
# The last token

After the words have ended the server posts `server_sem` once, and then the client
and the server both wait for it.  Whichever takes the token returns, and the other
waits for ever.
-/

namespace CExamples.SharedMemory

open CExamples.Transition
open CExamples.Word

/-- The state in which the client has the words `words` left and the server waits. -/
def atLoop (memory : Memory) (words : List Token) (printed : List (List UInt8)) : State where
  client := .next words
  server := .wait
  memory := memory
  clientSem := 0
  serverSem := 0
  printed := printed

/-- The state in which the server has returned and the client waits for the token
that the server took. -/
def bereft (memory : Memory) (printed : List (List UInt8)) : State where
  client := .waitLast
  server := .returned
  memory := memory
  clientSem := 0
  serverSem := 0
  printed := printed

theorem bereft_stuck (memory : Memory) (printed : List (List UInt8)) :
    Stuck step (bereft memory printed) := by
  intro process
  cases process <;> rfl

theorem reachable_of_clientStep {state after : State} (stepped : clientStep state = some after) :
    Reachable step state after :=
  @Reachable.single _ _ step _ _ .client stepped

section Exchange

variable {memory : Memory} {word : Token} {later : List Token} {printed : List (List UInt8)}

/-- The client copies the rest of its word. -/
theorem reaches_post (state : State) {remaining index : Nat}
    (counted : index + remaining = word.length)
    (stored : Client.Stored memory (.copy word index later)) :
    ∃ filled : Memory, filled.string = word.bytes ∧
      Reachable step { state with memory := memory, client := .copy word index later }
        { state with memory := filled, client := .post word later } := by
  induction remaining generalizing index memory with
  | zero =>
      have ended : word.bytes[index]? = none :=
        List.getElem?_eq_none_iff.mpr (Nat.le_of_eq counted.symm)
      have stepped : clientStep { state with
          memory := memory
          client := .copy word index later } = some { state with
            memory := memory.store word.length 0
            client := .post word later } := by
        simp only [clientStep, ended]
      exact ⟨_, clientStep_stored stepped stored, reachable_of_clientStep stepped⟩
  | succ remaining ih =>
      have inside : index < word.bytes.length := by
        rw [Token.length] at counted
        omega
      have stepped : clientStep { state with
          memory := memory
          client := .copy word index later } = some { state with
            memory := memory.store index (word.bytes.get ⟨index, inside⟩)
            client := .copy word (index + 1) later } := by
        simp only [clientStep, List.getElem?_eq_getElem inside]
        rfl
      obtain ⟨filled, stringEq, rest⟩ := @ih _ (index + 1) (by omega)
        (clientStep_stored stepped stored)
      exact ⟨filled, stringEq, (reachable_of_clientStep stepped).trans rest⟩

/-- The server prints the posted word, and the client goes on with the next. -/
theorem reaches_next (stringEq : memory.string = word.bytes) :
    Reachable step { atLoop memory later printed with client := .post word later }
      (atLoop memory later (printed ++ [word.bytes])) := by
  refine @reachable_of_exec _ _ _ _ _
    [.client, .server, .server, .server, .server, .client] ?_
  simp [exec, step, clientStep, serverStep, atLoop, semWait, word.nonempty, stringEq]

/-- After the words the server takes the last token. -/
theorem reaches_bereft (memory : Memory) (printed : List (List UInt8)) :
    Reachable step (atLoop memory [] printed) (bereft (memory.store 0 0) printed) := by
  have empty : (memory.store 0 0).string = [] :=
    @Memory.string_store_zero _ [] (by decide) List.not_mem_nil rfl
  refine @reachable_of_exec _ _ _ _ _
    [.client, .client, .client, .server, .server, .server, .server] ?_
  simp [exec, step, clientStep, serverStep, atLoop, bereft, semWait, empty]

end Exchange

/-- From its loop the client comes to a state in which nobody moves. -/
theorem atLoop_stuck (memory : Memory) (words : List Token) (printed : List (List UInt8)) :
    ∃ state, Reachable step (atLoop memory words printed) state ∧ Stuck step state := by
  induction words generalizing memory printed with
  | nil => exact ⟨_, reaches_bereft memory printed, bereft_stuck _ _⟩
  | cons word later ih =>
      by_cases long : word.length ≥ shmSize - 1
      · -- the client gives up, and the server waits for a word
        refine ⟨{ atLoop memory later printed with client := .failed }, ?_, ?_⟩
        · apply reachable_of_clientStep
          simp only [clientStep, atLoop, if_pos long]
        · intro process
          cases process <;> rfl
      · have copies : clientStep (atLoop memory (word :: later) printed) =
            some { atLoop memory later printed with client := .copy word 0 later } := by
          simp only [clientStep, atLoop, if_neg long]
        obtain ⟨filled, stringEq, posts⟩ := @reaches_post memory word later
          (atLoop memory later printed) word.length 0 (Nat.zero_add _)
          (clientStep_stored copies trivial)
        obtain ⟨state, reachable, stuck⟩ := ih filled (printed ++ [word.bytes])
        exact ⟨state, (((reachable_of_clientStep copies).trans posts).trans
          (reaches_next stringEq)).trans reachable, stuck⟩

/-- For every file, no run brings both processes to their end, and some run brings
them to a state in which none of them moves. -/
theorem main_neverEnds (memory : Memory) (words : List Token) :
    (∀ state, Reachable step (initial memory words) state →
      ¬(state.client = .returned ∧ state.server = .returned)) ∧
      ∃ state, Reachable step (initial memory words) state ∧ Stuck step state := by
  constructor
  · rintro state reachable ⟨clientEq, serverEq⟩
    obtain ⟨left, exchanges⟩ := reachable_exchanges reachable
    have token := exchanges.token
    simp only [clientEq, serverEq, Client.turn, Server.turn] at token
    omega
  · exact atLoop_stuck memory words []

/-- With an empty file the server returns and the client waits for ever. -/
theorem emptyFile_stuck :
    Reachable step (initial filled []) (bereft (filled.store 0 0) []) ∧
      Stuck step (bereft (filled.store 0 0) []) ∧
      ¬((bereft (filled.store 0 0) []).client = .returned ∧
        (bereft (filled.store 0 0) []).server = .returned) :=
  ⟨reaches_bereft filled [], bereft_stuck _ _, nofun⟩

end CExamples.SharedMemory
