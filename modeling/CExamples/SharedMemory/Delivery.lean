import CExamples.SharedMemory.Core

/-!
# Exclusive use of the shared memory

There is one token: it lies in one of the semaphores or with the process that does
not wait.  So the server looks at the memory only while the client waits, and finds
there the word that the client has posted, or the empty string after the last one.
-/

namespace CExamples.SharedMemory

open CExamples.Transition
open CExamples.Word

/-- The token is with the client. -/
def Client.turn : Client → Nat
  | .wait _ _ => 0
  | .waitLast => 0
  | _ => 1

/-- The token is with the server. -/
def Server.turn : Server → Nat
  | .wait => 0
  | .waitLast => 0
  | _ => 1

namespace Client

/-- The client is storing into the memory. -/
def Writes : Client → Prop
  | .copy _ _ _ => True
  | .clear => True
  | _ => False

/-- The client has posted the end of the words. -/
def Finished (client : Client) : Prop :=
  client = .waitLast ∨ client = .returned

/-- What the client has stored. -/
def Stored (memory : Memory) : Client → Prop
  | .copy word index _ =>
      word.length + 1 < shmSize ∧ index ≤ word.length ∧
        memory.bytes.take index = word.bytes.take index
  | .post word _ => memory.string = word.bytes
  | .wait word _ => memory.string = word.bytes
  | .postLast => memory.string = []
  | .waitLast => memory.string = []
  | .returned => memory.string = []
  | _ => True

theorem waits_of_turn {client : Client} (turn : client.turn = 0) :
    (∃ word later, client = .wait word later) ∨ client = .waitLast := by
  cases client with
  | wait word later => exact Or.inl ⟨word, later, rfl⟩
  | waitLast => exact Or.inr rfl
  | _ => cases turn

end Client

/-- The server has left its loop. -/
def Server.Left (server : Server) : Prop :=
  server = .postLast ∨ server = .waitLast ∨ server = .returned

/-- The words that are not printed yet, when the word that the client has posted is
not printed if `posted`. -/
def Client.Owes (posted : Bool) (left : List Token) : Client → Prop
  | .next words => left = words
  | .copy word _ later => left = word :: later
  | .post word later => left = word :: later
  | .wait word later => left = if posted then word :: later else later
  | .failed => True
  | _ => left = []

/-- The word that the client has posted is not printed yet. -/
def State.posted (state : State) : Bool :=
  0 < state.clientSem || state.server = .compare || state.server = .print

/-- The invariant of all runs on `words`, with `left` not printed yet. -/
structure Exchanges (words left : List Token) (state : State) : Prop where
  token : state.clientSem + state.serverSem + state.client.turn + state.server.turn = 1
  stored : state.client.Stored state.memory
  prints : state.server = .print → ∃ word later, state.client = .wait word later
  finished : state.server.Left → state.client.Finished
  owes : state.client.Owes state.posted left
  words : words.map Token.bytes = state.printed ++ left.map Token.bytes

/-- What a step of the client does. -/
inductive ClientActs (state : State) : State → Prop
  | leavesLoop (clientEq : state.client = .next []) :
      ClientActs state { state with client := .clear }
  | refuses {word : Token} {later : List Token} (clientEq : state.client = .next (word :: later)) :
      ClientActs state { state with client := .failed }
  | begins {word : Token} {later : List Token} (clientEq : state.client = .next (word :: later))
      (short : word.length < shmSize - 1) :
      ClientActs state { state with client := .copy word 0 later }
  | copies {word : Token} {index : Nat} {later : List Token} {byte : UInt8}
      (clientEq : state.client = .copy word index later)
      (byteEq : word.bytes[index]? = some byte) :
      ClientActs state { state with
        memory := state.memory.store index byte
        client := .copy word (index + 1) later }
  | terminates {word : Token} {index : Nat} {later : List Token}
      (clientEq : state.client = .copy word index later) (ended : word.length ≤ index) :
      ClientActs state { state with
        memory := state.memory.store word.length 0
        client := .post word later }
  | posts {word : Token} {later : List Token} (clientEq : state.client = .post word later) :
      ClientActs state
        { state with clientSem := state.clientSem + 1, client := .wait word later }
  | waits {word : Token} {later : List Token} {serverSem : Nat}
      (clientEq : state.client = .wait word later) (waited : state.serverSem = serverSem + 1) :
      ClientActs state { state with serverSem := serverSem, client := .next later }
  | clears (clientEq : state.client = .clear) :
      ClientActs state { state with memory := state.memory.store 0 0, client := .postLast }
  | postsLast (clientEq : state.client = .postLast) :
      ClientActs state { state with clientSem := state.clientSem + 1, client := .waitLast }
  | waitsLast {serverSem : Nat} (clientEq : state.client = .waitLast)
      (waited : state.serverSem = serverSem + 1) :
      ClientActs state { state with serverSem := serverSem, client := .returned }

theorem clientStep_acts {state after : State} (stepped : clientStep state = some after) :
    ClientActs state after := by
  unfold clientStep at stepped
  split at stepped <;> rename_i clientEq
  · cases stepped
    exact .leavesLoop clientEq
  · split at stepped <;> cases stepped
    · exact .refuses clientEq
    · rename_i short
      exact .begins clientEq (Nat.lt_of_not_le short)
  · split at stepped <;> cases stepped
    · rename_i byte byteEq
      exact .copies clientEq byteEq
    · rename_i ended
      exact .terminates clientEq (List.getElem?_eq_none_iff.mp ended)
  · cases stepped
    exact .posts clientEq
  · rcases Option.map_eq_some_iff.mp stepped with ⟨serverSem, waited, rfl⟩
    exact .waits clientEq (semWait_eq_some.mp waited)
  · cases stepped
    exact .clears clientEq
  · cases stepped
    exact .postsLast clientEq
  · rcases Option.map_eq_some_iff.mp stepped with ⟨serverSem, waited, rfl⟩
    exact .waitsLast clientEq (semWait_eq_some.mp waited)
  · cases stepped
  · cases stepped

/-! ## The stored word -/

section Store

variable {memory : Memory}

theorem Memory.take_store {index : Nat} {text : List UInt8} {byte : UInt8}
    (inside : index < shmSize) (copied : memory.bytes.take index = text.take index)
    (byteEq : text[index]? = some byte) :
    (memory.store index byte).bytes.take (index + 1) = text.take (index + 1) := by
  have room := Nat.lt_of_lt_of_le inside memory.large
  simp only [store]
  rw [List.take_add_one, List.take_add_one, List.take_set_of_le (Nat.le_refl index),
    List.getElem?_set_self room, byteEq, copied]

theorem Memory.string_store_zero {text : List UInt8} (inside : text.length < shmSize)
    (noZero : 0 ∉ text) (copied : memory.bytes.take text.length = text) :
    (memory.store text.length 0).string = text :=
  cString_set_zero copied noZero (Nat.lt_of_lt_of_le inside memory.large)

/-- A step of the client stores the next byte of its word, the terminator or the
empty string. -/
theorem clientStep_stored {state after : State} (stepped : clientStep state = some after)
    (stored : state.client.Stored state.memory) : after.client.Stored after.memory := by
  cases clientStep_acts stepped with
  | leavesLoop clientEq => trivial
  | refuses clientEq => trivial
  | begins clientEq short => exact ⟨by rw [shmSize] at *; omega, Nat.zero_le _, rfl⟩
  | @copies word index later byte clientEq byteEq =>
      rw [clientEq] at stored
      rcases stored with ⟨short, within, copied⟩
      rcases List.getElem?_eq_some_iff.mp byteEq with ⟨inside, _⟩
      exact ⟨short, inside, Memory.take_store (by omega) copied byteEq⟩
  | @terminates word index later clientEq ended =>
      rw [clientEq] at stored
      rcases stored with ⟨short, within, copied⟩
      have all : index = word.length := Nat.le_antisymm within ended
      apply Memory.string_store_zero (Nat.lt_of_succ_lt short) word.noZero
      rw [all] at copied
      exact copied.trans List.take_length
  | posts clientEq => rwa [clientEq] at stored
  | waits clientEq waited => trivial
  | clears clientEq => exact @Memory.string_store_zero _ [] (by decide) List.not_mem_nil rfl
  | postsLast clientEq => rwa [clientEq] at stored
  | waitsLast clientEq waited => rwa [clientEq] at stored

end Store

/-! ## Steps -/

section Steps

variable {words left : List Token} {state after : State}

/-- What every step of the client does with the token. -/
structure ClientMoves (state after : State) : Prop where
  server : after.server = state.server
  printed : after.printed = state.printed
  token : after.clientSem + after.serverSem + after.client.turn =
    state.clientSem + state.serverSem + state.client.turn
  active : 0 < state.serverSem + state.client.turn
  finished : state.client.Finished → after.client.Finished

/-- A step that keeps the token with the client. -/
theorem moves_inside {client : Client} {memory : Memory} (active : state.client.turn = 1)
    (still : client.turn = 1) (unfinished : ¬state.client.Finished) :
    ClientMoves state { state with memory := memory, client := client } where
  server := rfl
  printed := rfl
  token := by rw [active, still]
  active := by omega
  finished := fun finished => absurd finished unfinished

/-- A post to `client_sem`. -/
theorem moves_post {client : Client} (active : state.client.turn = 1) (waits : client.turn = 0)
    (finished : state.client.Finished → client.Finished) :
    ClientMoves state { state with clientSem := state.clientSem + 1, client := client } where
  server := rfl
  printed := rfl
  token := by
    simp only [active, waits]
    omega
  active := by omega
  finished := finished

/-- A wait for `server_sem` that returns. -/
theorem moves_wait {client : Client} {serverSem : Nat}
    (waited : state.serverSem = serverSem + 1) (waits : state.client.turn = 0)
    (active : client.turn = 1) (finished : state.client.Finished → client.Finished) :
    ClientMoves state { state with serverSem := serverSem, client := client } where
  server := rfl
  printed := rfl
  token := by
    simp only [active, waits, waited]
    omega
  active := by omega
  finished := finished

theorem clientStep_moves (stepped : clientStep state = some after) : ClientMoves state after := by
  have unfinished {client : Client} (clientEq : state.client = client)
      (notLast : client ≠ .waitLast ∧ client ≠ .returned) : ¬state.client.Finished := by
    rw [clientEq]
    rintro (last | returned)
    · exact notLast.1 last
    · exact notLast.2 returned
  have turn {client : Client} (clientEq : state.client = client) :
      state.client.turn = client.turn := congrArg Client.turn clientEq
  cases clientStep_acts stepped with
  | leavesLoop clientEq | refuses clientEq | begins clientEq | copies clientEq
  | terminates clientEq | clears clientEq =>
      exact moves_inside (turn clientEq) rfl (unfinished clientEq (by simp))
  | posts clientEq =>
      exact moves_post (turn clientEq) rfl fun finished =>
        absurd finished (unfinished clientEq (by simp))
  | waits clientEq waited =>
      exact moves_wait waited (turn clientEq) rfl fun finished =>
        absurd finished (unfinished clientEq (by simp))
  | postsLast clientEq => exact moves_post (turn clientEq) rfl fun _ => Or.inl rfl
  | waitsLast clientEq waited => exact moves_wait waited (turn clientEq) rfl fun _ => Or.inr rfl

/-- The words that are not printed yet stay the same. -/
theorem clientStep_owes (stepped : clientStep state = some after)
    (token : state.clientSem + state.serverSem + state.client.turn + state.server.turn = 1)
    (owes : state.client.Owes state.posted left) : after.client.Owes after.posted left := by
  cases clientStep_acts stepped with
  | leavesLoop clientEq | begins clientEq | copies clientEq | terminates clientEq
  | clears clientEq | postsLast clientEq | waitsLast clientEq =>
      rw [clientEq] at owes
      exact owes
  | refuses clientEq => trivial
  | posts clientEq =>
      rw [clientEq] at owes
      simpa [Client.Owes, State.posted] using owes
  | waits clientEq waited =>
      have printed : state.posted = false := by
        cases serverEq : state.server <;> simp only [serverEq, Server.turn] at token <;>
          simp [State.posted, serverEq] <;> omega
      rwa [clientEq, Client.Owes, printed] at owes

theorem clientStep_exchanges (stepped : clientStep state = some after)
    (exchanges : Exchanges words left state) : Exchanges words left after := by
  have moves := clientStep_moves stepped
  have token := exchanges.token
  have kept := moves.token
  have active := moves.active
  refine ⟨?_, clientStep_stored stepped exchanges.stored, ?_, ?_,
    clientStep_owes stepped token exchanges.owes, ?_⟩
  · rw [moves.server]
    omega
  · rw [moves.server]
    intro serverEq
    simp only [serverEq, Server.turn] at token
    omega
  · rw [moves.server]
    exact fun serverLeft => moves.finished (exchanges.finished serverLeft)
  · rw [moves.printed]
    exact exchanges.words

/-- The server moves with the token only while the client waits. -/
theorem Exchanges.client_waits (exchanges : Exchanges words left state)
    (active : 0 < state.clientSem + state.server.turn) :
    (∃ word later, state.client = .wait word later) ∨ state.client = .waitLast := by
  have token := exchanges.token
  exact Client.waits_of_turn (by omega)

/-- A step of the server that prints nothing. -/
theorem Exchanges.serverAt (exchanges : Exchanges words left state) {server : Server}
    {clientSem serverSem : Nat}
    (token : clientSem + serverSem + server.turn =
      state.clientSem + state.serverSem + state.server.turn)
    (prints : server = .print → ∃ word later, state.client = .wait word later)
    (finished : server.Left → state.client.Finished)
    (owes : state.client.Owes
      (State.posted { state with
        server := server
        clientSem := clientSem
        serverSem := serverSem }) left) :
    Exchanges words left { state with
      server := server
      clientSem := clientSem
      serverSem := serverSem } where
  token := by
    have one := exchanges.token
    simp only
    omega
  stored := exchanges.stored
  prints := prints
  finished := finished
  owes := owes
  words := exchanges.words

/-- The server finds the posted word, or the empty string after the last one. -/
theorem Exchanges.compares (exchanges : Exchanges words left state)
    (serverEq : state.server = .compare) :
    state.memory.string = [] ∧ state.client = .waitLast ∨
      state.memory.string ≠ [] ∧ ∃ word later, state.client = .wait word later := by
  have stored := exchanges.stored
  have active : 0 < state.clientSem + state.server.turn := by
    rw [serverEq]
    exact Nat.succ_pos _
  rcases exchanges.client_waits active with ⟨word, later, clientEq⟩ | clientEq
  · rw [clientEq] at stored
    refine Or.inr ⟨?_, word, later, clientEq⟩
    rw [show state.memory.string = word.bytes from stored]
    exact word.nonempty
  · rw [clientEq] at stored
    exact Or.inl ⟨stored, clientEq⟩

/-- The server prints the posted word. -/
theorem Exchanges.print (exchanges : Exchanges words left state)
    (serverEq : state.server = .print) :
    ∃ left, Exchanges words left { state with
      printed := state.printed ++ [state.memory.string]
      server := .post } := by
  have token := exchanges.token
  have stored := exchanges.stored
  have owes := exchanges.owes
  have posted : state.posted = true := by simp [State.posted, serverEq]
  obtain ⟨word, later, clientEq⟩ := exchanges.prints serverEq
  simp only [serverEq, Server.turn] at token
  simp only [clientEq, posted] at owes stored
  have taken : state.clientSem = 0 := by omega
  refine ⟨later, ?_, ?_, nofun, ?_, ?_, ?_⟩
  · simp only [Server.turn]
    omega
  · rw [clientEq]
    exact stored
  · simp [Server.Left]
  · rw [clientEq]
    simp [Client.Owes, State.posted, taken]
  · rw [exchanges.words, show left = _ from owes, show state.memory.string = _ from stored]
    simp

theorem serverStep_exchanges (stepped : serverStep state = some after)
    (exchanges : Exchanges words left state) : ∃ left, Exchanges words left after := by
  have owes := exchanges.owes
  unfold serverStep at stepped
  split at stepped <;> rename_i serverEq
  · obtain ⟨clientSem, waited, rfl⟩ := Option.map_eq_some_iff.mp stepped
    rw [semWait_eq_some] at waited
    refine ⟨left, exchanges.serverAt ?_ nofun ?_ ?_⟩
    · simp only [serverEq, waited, Server.turn]
      omega
    · simp [Server.Left]
    · simpa [State.posted, waited] using owes
  · rcases exchanges.compares serverEq with ⟨empty, clientEq⟩ | ⟨nonempty, word⟩
    · rw [if_pos empty] at stepped
      cases stepped
      refine ⟨left, exchanges.serverAt ?_ nofun (fun _ => Or.inl clientEq) ?_⟩
      · simp only [serverEq, Server.turn]
      · rw [clientEq] at owes ⊢
        exact owes
    · rw [if_neg nonempty] at stepped
      cases stepped
      refine ⟨left, exchanges.serverAt ?_ (fun _ => word) ?_ ?_⟩
      · simp only [serverEq, Server.turn]
      · simp [Server.Left]
      · simpa [State.posted, serverEq] using owes
  · cases stepped
    exact exchanges.print serverEq
  · cases stepped
    refine ⟨left, exchanges.serverAt ?_ nofun ?_ ?_⟩
    · simp only [serverEq, Server.turn]
      omega
    · simp [Server.Left]
    · simpa [State.posted, serverEq] using owes
  · cases stepped
    refine ⟨left, exchanges.serverAt ?_ nofun ?_ ?_⟩
    · simp only [serverEq, Server.turn]
      omega
    · exact fun _ => exchanges.finished (Or.inl serverEq)
    · simpa [State.posted, serverEq] using owes
  · obtain ⟨serverSem, waited, rfl⟩ := Option.map_eq_some_iff.mp stepped
    rw [semWait_eq_some] at waited
    refine ⟨left, exchanges.serverAt ?_ nofun ?_ ?_⟩
    · simp only [serverEq, waited, Server.turn]
      omega
    · exact fun _ => exchanges.finished (Or.inr (Or.inl serverEq))
    · simpa [State.posted, serverEq] using owes
  · cases stepped

end Steps

/-! ## Runs -/

theorem exchanges_initial (memory : Memory) (words : List Token) :
    Exchanges words words (initial memory words) where
  token := rfl
  stored := trivial
  prints := nofun
  finished := by simp [initial, Server.Left]
  owes := rfl
  words := rfl

theorem reachable_exchanges {memory : Memory} {words : List Token} {state : State}
    (reachable : Reachable step (initial memory words) state) :
    ∃ left, Exchanges words left state := by
  refine @Reachable.invariant _ _ _ (fun state => ∃ left, Exchanges words left state) _ _
    reachable ⟨words, exchanges_initial memory words⟩ ?_
  rintro before process after ⟨left, exchanges⟩ stepped
  cases process with
  | client => exact ⟨left, clientStep_exchanges stepped exchanges⟩
  | server => exact serverStep_exchanges stepped exchanges

/-- Memory without a zero byte. -/
def filled : Memory where
  bytes := List.replicate shmSize 255
  large := by simp

/-- The server prints the client's words in order, looks at the memory only while the
client is not storing, and leaves its loop when it has printed all words. -/
theorem reachable_prints {memory : Memory} {words : List Token} {state : State}
    (reachable : Reachable step (initial memory words) state) :
    state.printed <+: words.map Token.bytes ∧
      (state.server = .compare ∨ state.server = .print → ¬state.client.Writes) ∧
      (state.server.Left → state.printed = words.map Token.bytes) := by
  obtain ⟨left, exchanges⟩ := reachable_exchanges reachable
  refine ⟨⟨_, exchanges.words.symm⟩, ?_, ?_⟩
  · intro looks
    have active : state.server.turn = 1 := by
      rcases looks with serverEq | serverEq <;> rw [serverEq] <;> rfl
    rcases exchanges.client_waits (by omega) with ⟨word, later, clientEq⟩ | clientEq <;>
      rw [clientEq] <;> exact id
  · intro serverLeft
    have owes := exchanges.owes
    have none : left = [] := by
      rcases exchanges.finished serverLeft with clientEq | clientEq <;>
        rwa [clientEq] at owes
    rw [exchanges.words, none, List.map_nil, List.append_nil]

/-- The run in which the client sends one letter and the server prints it and leaves
its loop. -/
theorem oneLetter_printed :
    ∃ state, Reachable step (initial filled [Token.letter 97 (by decide)]) state ∧
      state.server.Left ∧ state.printed = [[97]] := by
  have run : ∃ state, exec step (initial filled [Token.letter 97 (by decide)])
      ([.client, .client, .client, .client] ++ [.server, .server, .server, .server] ++
        [.client, .client, .client, .client] ++ [.server, .server]) = some state ∧
      state.server = .postLast := ⟨_, rfl, rfl⟩
  obtain ⟨state, run, serverEq⟩ := run
  have reachable := reachable_of_exec run
  exact ⟨state, reachable, Or.inl serverEq, (reachable_prints reachable).2.2 (Or.inl serverEq)⟩

end CExamples.SharedMemory
