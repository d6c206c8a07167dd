import CExamples.IoMultiplexing.Poll.Run
import CExamples.Program.Keeps

/-!
# Interrupting the poll server

SIGINT sets `exit_flag`, and the server leaves its loop when it reads the flag the
next time.  It then closes its clients and the listening socket and removes
`SOCKET_PATH`.  A `poll` or an `accept` that SIGINT interrupts returns `-1`
instead, which the server takes for an error: it exits at once and cleans nothing
up.  When no call fails otherwise, these interruptions decide how a run ends.
-/

namespace CExamples.IoMultiplexing.Poll

open CExamples.Program

/-! ## Runs without failures -/

/-- No call fails except by being interrupted, and descriptors are handed out
lowest first, so that those of the clients come after the listening socket. -/
structure Regular (environment : Environment (List UInt16)) : Prop where
  socket : ∃ sockfd, environment.socketReply = some sockfd ∧ 0 ≤ sockfd ∧
    ∀ fd replies, .returned (fd, replies) ∈ environment.incoming → sockfd < fd
  bind : environment.bindReply = true
  listen : environment.listenReply = true
  allocations : ∀ succeeds ∈ environment.allocations, succeeds = true
  ready : .failed ∉ environment.ready
  incoming : .failed ∉ environment.incoming

/-- The answers that were given before `rest` was left. -/
def given {α : Type} (answers rest : List α) : List α :=
  answers.take (answers.length - rest.length)

/-- SIGINT interrupted a `poll` or an `accept` of the run that led to `world`. -/
def Interrupted (environment : Environment (List UInt16)) (world : World (List UInt16)) :
    Prop :=
  ∃ sigint, .interrupted sigint ∈ given environment.ready world.ready ∨
    .interrupted sigint ∈ given environment.incoming world.incoming

instance (environment : Environment (List UInt16)) (world : World (List UInt16)) :
    Decidable (Interrupted environment world) :=
  inferInstanceAs (Decidable (∃ _, _ ∨ _))

/-- The status with which the process has terminated, by returning from `main` or by
`exit`. -/
def exitStatus : EStateM.Result (Halt Call) (World (List UInt16)) Int → Option Int
  | .ok status _ => some status
  | .error (.exit status _) _ => some status
  | _ => none

/-- The process reports success, has closed every client and the listening socket,
and has removed `SOCKET_PATH`. -/
structure CleanedUp (status : Int) (world : World (List UInt16)) : Prop where
  success : status = 0
  clients : world.opened = []
  listening : world.listening = none
  socketPath : world.socketPath = false

/-- The answers given so far are all but `rest`, and none is an interruption. -/
structure Uninterrupted {α : Type} (answers rest : List (Reply α)) : Prop where
  suffix : rest <:+ answers
  returned : ∀ reply ∈ given answers rest, ∃ value, reply = .returned value

namespace Uninterrupted

variable {α : Type} {answers rest : List (Reply α)} {reply : Reply α}

theorem start (answers : List (Reply α)) : Uninterrupted answers answers := by
  constructor
  · exact List.suffix_refl answers
  · simp [given]

/-- One more answer. -/
theorem given_tail (suffix : reply :: rest <:+ answers) :
    given answers rest = given answers (reply :: rest) ++ [reply] := by
  obtain ⟨before, rfl⟩ := suffix
  have first : given (before ++ reply :: rest) (reply :: rest) = before := by
    simp [given]
  have second : given (before ++ reply :: rest) rest = before ++ [reply] := by
    have lengthEq : (before ++ reply :: rest).length - rest.length = before.length + 1 := by
      simp only [List.length_append, List.length_cons]
      omega
    rw [given, lengthEq, List.take_append, List.take_of_length_le (by omega),
      Nat.add_sub_cancel_left, List.take_succ_cons, List.take_zero]
  rw [first, second]

theorem tail {value : α} (uninterrupted : Uninterrupted answers (.returned value :: rest)) :
    Uninterrupted answers rest := by
  constructor
  · exact (List.suffix_cons _ rest).trans uninterrupted.suffix
  · intro reply member
    rw [given_tail uninterrupted.suffix] at member
    rcases List.mem_append.mp member with earlier | last
    · exact uninterrupted.returned reply earlier
    · exact ⟨value, List.mem_singleton.mp last⟩

/-- An interruption is the last answer given. -/
theorem interruption {sigint : Bool}
    (uninterrupted : Uninterrupted answers (.interrupted sigint :: rest)) :
    .interrupted sigint ∈ given answers rest := by
  rw [given_tail uninterrupted.suffix]
  exact List.mem_append_right _ List.mem_cons_self

theorem next_mem (uninterrupted : Uninterrupted answers (reply :: rest)) : reply ∈ answers :=
  uninterrupted.suffix.subset List.mem_cons_self

theorem not_mem {sigint : Bool} (uninterrupted : Uninterrupted answers rest) :
    .interrupted sigint ∉ given answers rest := by
  intro member
  obtain ⟨value, equal⟩ := uninterrupted.returned _ member
  cases equal

end Uninterrupted

/-! ## What the calls keep -/

/-- Nothing has gone wrong so far. -/
structure Calm (environment : Environment (List UInt16)) (world : World (List UInt16)) :
    Prop where
  ready : Uninterrupted environment.ready world.ready
  incoming : Uninterrupted environment.incoming world.incoming
  allocations : ∀ succeeds ∈ world.allocations, succeeds = true
  positive : ∀ fd ∈ world.opened, 0 < fd

/-- The server exits only after an interruption, and reports a failure. -/
def Quits (environment : Environment (List UInt16)) (reason : Halt Call)
    (world : World (List UInt16)) : Prop :=
  ∀ code message, reason = .exit code message → code = 1 ∧ Interrupted environment world

variable {environment : Environment (List UInt16)} {world : World (List UInt16)}

namespace Calm

theorem not_interrupted (calm : Calm environment world) : ¬Interrupted environment world := by
  rintro ⟨sigint, ready | incoming⟩
  · exact calm.ready.not_mem ready
  · exact calm.incoming.not_mem incoming

/-- The calls that take no answer of `poll`, `accept` or the allocator. -/
theorem of_eq (calm : Calm environment world) {next : World (List UInt16)}
    (ready : next.ready = world.ready) (incoming : next.incoming = world.incoming)
    (allocations : next.allocations = world.allocations)
    (opened : next.opened ⊆ world.opened) : Calm environment next where
  ready := ready ▸ calm.ready
  incoming := incoming ▸ calm.incoming
  allocations := allocations ▸ calm.allocations
  positive fd member := calm.positive fd (opened member)

end Calm

theorem calm_faults (world : World (List UInt16)) (_ : Calm environment world) :
    Quits environment .fault world := by
  rintro code message ⟨⟩

theorem calm_fuel (world : World (List UInt16)) (_ : Calm environment world) :
    Quits environment .fuel world := by
  rintro code message ⟨⟩

section Calls

theorem keeps_readExitFlag : Keeps (Calm environment) (Quits environment) readExitFlag := by
  intro world calm
  simp only [readExitFlag, wp_bind, wp_get]
  cases world.signals with
  | nil => exact calm
  | cons sigint signals => exact calm.of_eq rfl rfl rfl (List.Subset.refl _)

/-- The allocator does not fail. -/
theorem wp_allocate_calm (calm : Calm environment world) {halt : Halt Call → World _ → Prop} :
    wp allocate (fun succeeds next => succeeds = true ∧ Calm environment next) halt world := by
  simp only [allocate, wp_bind, wp_get]
  cases allocationsEq : world.allocations with
  | nil => exact ⟨rfl, calm⟩
  | cons succeeds allocations =>
      have all := calm.allocations
      rw [allocationsEq] at all
      refine ⟨all succeeds List.mem_cons_self, calm.ready, calm.incoming, ?_, calm.positive⟩
      exact fun other member => all other (List.mem_cons_of_mem succeeds member)

/-- What an answer leaves. -/
def Answered {α : Type} (environment : Environment (List UInt16)) (reply : Reply α)
    (next : World (List UInt16)) : Prop :=
  match reply with
  | .returned _ => Calm environment next
  | .interrupted _ => Interrupted environment next
  | .failed => False

theorem wp_multiplex_calm (regular : Regular environment) (calm : Calm environment world) :
    wp (multiplex .poll) (Answered environment) (Quits environment) world := by
  have ready := calm.ready
  simp only [multiplex, wp_bind, wp_get]
  rcases readyEq : world.ready with _ | ⟨_ | sigint | _, rest⟩
  · rintro code message ⟨⟩
  · rw [readyEq] at ready
    exact ⟨ready.tail, calm.incoming, calm.allocations, calm.positive⟩
  · rw [readyEq] at ready
    exact ⟨sigint, Or.inl ready.interruption⟩
  · rw [readyEq] at ready
    exact absurd ready.next_mem regular.ready

theorem wp_accept_calm (regular : Regular environment) (calm : Calm environment world) :
    wp accept (Answered environment) (Quits environment) world := by
  have incoming := calm.incoming
  simp only [accept, wp_bind, wp_get]
  rcases incomingEq : world.incoming with _ | ⟨⟨fd, replies⟩ | sigint | _, rest⟩
  · rintro code message ⟨⟩
  · rw [incomingEq] at incoming
    obtain ⟨sockfd, -, notNegative, above⟩ := regular.socket
    have higher := above fd replies incoming.next_mem
    by_cases acceptable : world.Acceptable fd
    · simp only [if_pos acceptable]
      refine ⟨calm.ready, incoming.tail, calm.allocations, ?_⟩
      rintro other (_ | ⟨_, member⟩)
      · omega
      · exact calm.positive other member
    · simp only [if_neg acceptable]
      rintro code message ⟨⟩
  · rw [incomingEq] at incoming
    exact ⟨sigint, Or.inr incoming.interruption⟩
  · rw [incomingEq] at incoming
    exact absurd incoming.next_mem regular.incoming

theorem keeps_close (fd : Int) : Keeps (Calm environment) (Quits environment) (close fd) := by
  intro world calm
  simp only [close, wp_bind, wp_get]
  have fewer : (openDescriptors world.trace).erase fd ⊆ world.opened := List.erase_subset
  split
  · exact calm.of_eq rfl rfl rfl (List.Subset.refl _)
  · split
    · exact calm.of_eq rfl rfl rfl fewer
    · exact calm.of_eq rfl rfl rfl fewer

theorem keeps_read (fd : Int) (count : Nat) :
    Keeps (Calm environment) (Quits environment) (read fd count) := by
  intro world calm
  simp only [read, wp_bind, wp_get]
  split
  · split
    · rintro code message ⟨⟩
    · exact calm.of_eq rfl rfl rfl (List.Subset.refl _)
  · exact calm

theorem keeps_print (line : Line) :
    Keeps (Calm environment) (Quits environment) (print line) :=
  fun _ calm => calm.of_eq rfl rfl rfl (List.Subset.refl _)

end Calls

/-! ## What the functions keep -/

theorem keeps_readFull (fd : Int) (buf : List UInt8) (n : Nat) :
    Keeps (Calm environment) (Quits environment) (readFull fd buf n) := by
  have round (locals : Nat × List UInt8) :
      Keeps (Calm environment) (Quits environment) (readFullRound fd n locals) := by
    obtain ⟨off, buf⟩ := locals
    rw [readFullRound]
    split
    · apply (keeps_read fd (n - off)).bind
      rintro (got | _ | _ | _)
      · apply (Keeps.storeAll calm_faults buf off got).bind
        exact fun buf => Keeps.pure _
      · exact Keeps.pure _
      · exact Keeps.pure _
      · exact Keeps.pure _
    · exact Keeps.pure _
  rw [readFull]
  exact Keeps.get.bind fun world => Keeps.loop round calm_fuel _ _

theorem keeps_readPayload (fd : Int) (wordLength : Nat) :
    Keeps (Calm environment) (Quits environment) (readPayload fd wordLength) := by
  rw [readPayload]
  refine Keeps.get.bind fun world => (keeps_readFull fd world.word wordLength).bind ?_
  rintro ⟨code, word⟩
  simp only
  split
  · exact (keeps_print _).bind fun _ => Keeps.pure false
  · apply (Keeps.store calm_faults word wordLength 0).bind
    intro word
    apply Keeps.bind
    · exact Keeps.modify fun world calm => calm.of_eq rfl rfl rfl (List.Subset.refl _)
    · exact fun _ => Keeps.pure true

theorem keeps_readWord (fd : Int) :
    Keeps (Calm environment) (Quits environment) (readWord fd) := by
  rw [readWord]
  apply Keeps.bind
  · exact Keeps.modify fun world calm => calm.of_eq rfl rfl rfl (List.Subset.refl _)
  · rintro -
    apply (keeps_readFull fd [0] 1).bind
    rintro ⟨code, lengthByte⟩
    simp only
    split
    · exact (keeps_print _).bind fun _ => Keeps.pure false
    · apply (Keeps.load calm_faults lengthByte 0).bind
      intro letter
      split
      · exact (keeps_print _).bind fun _ => Keeps.pure false
      · exact keeps_readPayload fd _

theorem keeps_handleClientDisconnection (server : Server) (clientIndex : UInt64) :
    Keeps (Calm environment) (Quits environment)
      (handleClientDisconnection server clientIndex) := by
  have keeps_clearLast (server : Server) (last : UInt64) :
      Keeps (Calm environment) (Quits environment) (clearLast server last) := by
    rw [clearLast]
    apply (Keeps.store calm_faults _ _ _).bind
    intro clientSockets
    apply (Keeps.store calm_faults _ _ _).bind
    exact fun fds => Keeps.pure _
  rw [handleClientDisconnection]
  apply (Keeps.load calm_faults _ _).bind
  intro disconnectedSocket
  apply (keeps_close disconnectedSocket).bind
  intro closed
  simp only
  split
  · refine Keeps.bind ?_ fun server => keeps_clearLast server _
    rw [moveLast]
    apply (Keeps.load calm_faults _ _).bind
    intro lastSocket
    apply (Keeps.store calm_faults _ _ _).bind
    intro clientSockets
    apply (Keeps.load calm_faults _ _).bind
    intro lastFd
    apply (Keeps.store calm_faults _ _ _).bind
    exact fun fds => Keeps.pure _
  · exact keeps_clearLast server _

theorem keeps_handleClientData (server : Server) :
    Keeps (Calm environment) (Quits environment) (handleClientData server) := by
  refine Keeps.loop ?_ calm_fuel _ _
  rintro ⟨i, server⟩
  rw [clientDataRound]
  split
  · apply (Keeps.load calm_faults _ _).bind
    intro fd
    split
    · apply (Keeps.load calm_faults _ _).bind
      intro entry
      split
      · apply (keeps_readWord fd).bind
        rintro (_ | _)
        · apply (keeps_handleClientDisconnection server i).bind
          exact fun server => Keeps.pure _
        · apply (Keeps.load calm_faults _ _).bind
          intro entry
          apply (Keeps.store calm_faults _ _ _).bind
          exact fun fds => Keeps.pure _
      · exact Keeps.pure _
    · exact Keeps.pure _
  · exact Keeps.pure _

/-- Growing the arrays does not fail. -/
theorem keeps_growArrays (server : Server) :
    Keeps (Calm environment) (Quits environment) (growArrays server) := by
  intro world calm
  rw [growArrays]
  apply wp_seq (wp_allocate_calm calm)
  rintro _ next ⟨rfl, calm⟩
  simp only [if_true, wp_bind, wp_get]
  apply wp_conseq (wp_allocate_calm calm)
  rintro _ next ⟨rfl, calm⟩
  rw [if_pos rfl]
  refine Keeps.bind (Keeps.forRange ?_ _ _ _) (fun _ => Keeps.pure _) next calm
  rintro i ⟨clientSockets, fds⟩
  apply (Keeps.store calm_faults _ _ _).bind
  intro clientSockets
  apply (Keeps.store calm_faults _ _ _).bind
  exact fun fds => Keeps.pure _

/-- `accept` is interrupted, or the connection is stored. -/
theorem keeps_handleNewConnection (regular : Regular environment) (server : Server) :
    Keeps (Calm environment) (Quits environment) (handleNewConnection server) := by
  rw [handleNewConnection]
  apply (Keeps.load calm_faults _ _).bind
  intro listener
  split
  · intro world calm
    apply wp_seq (wp_accept_calm regular calm)
    rintro (newSocket | sigint | _) next answered
    · have stores (server : Server) : Keeps (Calm environment) (Quits environment) (do
          let clientSockets ← store server.clientSockets server.clientCount.toNat newSocket
          let fds ← store server.fds (server.clientCount + 1).toNat ⟨newSocket, pollin, 0⟩
          pure { server with clientSockets, fds, clientCount := server.clientCount + 1 }) := by
        apply (Keeps.store calm_faults _ _ _).bind
        intro clientSockets
        apply (Keeps.store calm_faults _ _ _).bind
        exact fun fds => Keeps.pure _
      simp only
      split
      · exact (keeps_growArrays server).bind stores next answered
      · exact (Keeps.pure server).bind stores next answered
    · rintro code message ⟨⟩
      exact ⟨rfl, answered⟩
    · exact answered.elim
  · exact Keeps.pure _

/-- `poll` is interrupted, or the round goes to its end. -/
theorem keeps_mainBody (regular : Regular environment) (server : Server) :
    Keeps (Calm environment) (Quits environment) (mainBody server) := by
  intro world calm
  rw [mainBody, poll, wp_bind, wp_bind]
  apply wp_conseq (wp_multiplex_calm regular calm)
  rintro (revents | sigint | _) next answered
  · simp only
    split
    · refine Keeps.bind (keeps_handleNewConnection regular _) ?_ next answered
      intro server
      have resets (server : Server) : Keeps (Calm environment) (Quits environment) (do
          let listener ← load server.fds 0
          let fds ← store server.fds 0 { listener with revents := 0 }
          pure { server with fds }) := by
        apply (Keeps.load calm_faults _ _).bind
        intro listener
        apply (Keeps.store calm_faults _ _ _).bind
        exact fun fds => Keeps.pure _
      split
      · exact (keeps_handleClientData server).bind resets
      · exact (Keeps.pure server).bind resets
    · rintro code message ⟨⟩
  · rintro code message ⟨⟩
    exact ⟨rfl, answered⟩
  · exact answered.elim

theorem keeps_mainRound (regular : Regular environment) (server : Server) :
    Keeps (Calm environment) (Quits environment) (mainRound server) := by
  rw [mainRound]
  apply keeps_readExitFlag.bind
  rintro (_ | _)
  · exact (keeps_mainBody regular server).bind fun server => Keeps.pure _
  · exact Keeps.pure _

theorem keeps_initializePollfds (sockfd : Int) :
    Keeps (Calm environment) (Quits environment) (initializePollfds sockfd) := by
  intro world calm
  rw [initializePollfds]
  apply wp_seq (wp_allocate_calm calm)
  rintro _ next ⟨rfl, calm⟩
  simp only [if_true]
  refine Keeps.bind Keeps.get ?_ next calm
  intro world'
  apply Keeps.bind
  · exact Keeps.forRange (fun i slots => Keeps.store calm_faults slots i (-1)) _ _ _
  · intro clientSockets world calm
    apply wp_seq (wp_allocate_calm calm)
    rintro _ next ⟨rfl, calm⟩
    rw [if_pos rfl]
    refine Keeps.bind (Keeps.store calm_faults _ _ _) ?_ next calm
    intro fds
    apply Keeps.bind
    · exact Keeps.forRange (fun i slots => Keeps.store calm_faults slots i PollFd.unused) _ _ _
    · exact fun fds => Keeps.pure _

/-- Before its loop `main` calls neither `poll` nor `accept`. -/
theorem wp_start_calm (regular : Regular environment) :
    wp start (fun _ next => Calm environment next) (Quits environment) environment.boot := by
  obtain ⟨sockfd, socketEq, notNegative, -⟩ := regular.socket
  have calm : Calm environment environment.boot :=
    ⟨.start _, .start _, regular.allocations, nofun⟩
  have created : sockfd ≠ -1 := by omega
  rw [start, unlink, socket, wp_bind, wp_modify, wp_bind, wp_bind, wp_get]
  simp only [Environment.boot, socketEq, wp_bind, wp_set, wp_pure, if_neg created]
  simp only [bind, listen, wp_bind, wp_get, regular.bind, regular.listen, if_true, wp_set,
    wp_pure, Bool.not_true, Bool.false_eq_true, if_false]
  refine wp_mono (keeps_initializePollfds sockfd _ ?_) (fun _ _ kept => kept) fun _ _ quits => quits
  exact calm.of_eq rfl rfl rfl (List.Subset.refl _)

/-! ## The end of the process -/

/-- The clients before index `i` are closed. -/
def Cleaning (environment : Environment (List UInt16)) (sockfd : Int) (fds : List Int) (i : Nat)
    (_ : Unit) (next : World (List UInt16)) : Prop :=
  next.Sound sockfd (fds.drop i) ∧ Calm environment next

theorem round_cleaning {sockfd : Int} {fds spare : List Int} {i : Nat} (inside : i < fds.length)
    (cleaning : Cleaning environment sockfd fds i () world)
    {halt : Halt Call → World (List UInt16) → Prop} :
    wp (do
        let fd ← load (fds ++ spare) i
        if decide (fd > 0) then socketClose fd else pure ())
      (Cleaning environment sockfd fds (i + 1)) halt world := by
  obtain ⟨sound, calm⟩ := cleaning
  have loaded : (load (fds ++ spare) i : PollSys Int) = pure fds[i] :=
    load_eq_pure (by rw [List.getElem?_append_left inside, List.getElem?_eq_getElem inside])
  rw [← List.getElem_cons_drop inside] at sound
  obtain ⟨isOpen, notListening, closed⟩ := sound.closable
  have positive := calm.positive fds[i] isOpen
  rw [loaded, pure_bind, if_pos (decide_eq_true positive), socketClose, wp_bind,
    wp_close isOpen notListening]
  exact ⟨closed, calm.of_eq rfl rfl rfl List.erase_subset⟩

/-- After the loop everything is cleaned up. -/
theorem wp_finish {sockfd : Int} {server : Server} (holds : Holds sockfd server world)
    (calm : Calm environment world) {halt : Halt Call → World (List UInt16) → Prop} :
    wp (finish sockfd server)
      (fun status next => CleanedUp status next ∧ ¬Interrupted environment next) halt world := by
  obtain ⟨revents, clients, free, rfl, few, sound⟩ := holds
  have count : (layout sockfd revents clients free).clientCount.toNat =
      (clients.map Client.fd).length := by
    rw [List.length_map]
    exact toNat_sizeT (by omega)
  rw [finish, shutdown, count, wp_bind]
  have closes (i : Nat) (_ : Unit) (next : World (List UInt16)) (_ : 0 ≤ i)
      (inside : i < 0 + (clients.map Client.fd).length)
      (cleaning : Cleaning environment sockfd (clients.map Client.fd) i () next) :=
    @round_cleaning environment next sockfd _ (List.replicate free (-1)) i (by omega) cleaning halt
  apply wp_conseq (wp_forRange _ 0 ⟨sound, calm⟩ closes)
  rintro - next ⟨sound, calm⟩
  rw [Nat.zero_add, List.drop_length] at sound
  rw [wp_bind, socketClose, wp_bind, wp_close_listening sound.listening]
  have closed : next.opened = [] := List.nil_perm.mp sound.perm
  exact ⟨⟨rfl, closed, rfl, rfl⟩, calm.not_interrupted⟩

/-- How a run of the server ends, if it does. -/
theorem wp_main_cleanup (regular : Regular environment) (rounds : Nat) :
    wp (main rounds)
      (fun status next => CleanedUp status next ∧ ¬Interrupted environment next)
      (Quits environment) environment.boot := by
  rw [main, wp_bind]
  refine wp_mono (wp_and (wp_start environment) (wp_start_calm regular)) ?_
    fun _ _ quits => quits.2
  rintro ⟨sockfd, server⟩ next ⟨holds, calm⟩
  rw [wp_bind]
  have round (server : Server) (world : World (List UInt16))
      (kept : Holds sockfd server world ∧ Calm environment world) :
      wp (mainRound server)
        (Sum.elim (fun server next => Holds sockfd server next ∧ Calm environment next)
          fun server next => Holds sockfd server next ∧ Calm environment next)
        (Quits environment) world := by
    refine wp_mono (wp_and (wp_mainRound kept.1) (keeps_mainRound regular server world kept.2))
      ?_ fun _ _ quits => quits.2
    rintro (server | server) next ⟨holds, calm⟩
    · exact ⟨holds, calm⟩
    · exact ⟨holds, calm⟩
  have loops := wp_loop_partial round (fun _ _ _ => nofun) rounds ⟨holds, calm⟩
  apply wp_conseq loops
  rintro server next ⟨holds, calm⟩
  exact wp_finish holds calm

/-- A client connects, and SIGINT arrives while no call waits. -/
def signalled : Environment (List UInt16) :=
  { (quiet : Environment (List UInt16)) with
    signals := [false, true]
    ready := [.returned [1]]
    incoming := [.returned (5, [])] }

/-- A client connects, and SIGINT arrives during the next `poll`. -/
def interrupted : Environment (List UInt16) :=
  { (quiet : Environment (List UInt16)) with
    ready := [.returned [1], .interrupted true]
    incoming := [.returned (5, [])] }

theorem signalled_regular : Regular signalled := by
  refine ⟨⟨3, rfl, by decide, ?_⟩, rfl, rfl, nofun, by decide, by decide⟩
  rintro fd replies (_ | ⟨_, ⟨⟩⟩)
  decide

theorem interrupted_regular : Regular interrupted := by
  refine ⟨⟨3, rfl, by decide, ?_⟩, rfl, rfl, nofun, by decide, by decide⟩
  rintro fd replies (_ | ⟨_, ⟨⟩⟩)
  decide

/-- A process that terminates has cleaned up exactly when SIGINT interrupted no
`poll` and no `accept`. -/
theorem main_cleanedUp_iff (regular : Regular environment) {rounds : Nat} {status : Int}
    (terminated : exitStatus (main rounds environment.boot) = some status) :
    CleanedUp status (finalState (main rounds environment.boot)) ↔
      ¬Interrupted environment (finalState (main rounds environment.boot)) := by
  have run := wp_main_cleanup regular rounds
  unfold wp at run
  cases result : main rounds environment.boot with
  | ok returned world =>
      rw [result] at run terminated
      cases terminated
      exact ⟨fun _ => run.2, fun _ => run.1⟩
  | error reason world =>
      rw [result] at run terminated
      cases reason with
      | exit code message =>
          cases terminated
          obtain ⟨rfl, interrupted⟩ := run code message rfl
          constructor
          · exact fun cleaned => absurd cleaned.success (by decide)
          · exact fun uninterrupted => absurd interrupted uninterrupted
      | blocked call => cases terminated
      | fault => cases terminated
      | fuel => cases terminated

theorem signalled_cleanedUp : CleanedUp 0 (finalState (main 2 signalled.boot)) :=
  (main_cleanedUp_iff signalled_regular (by decide +kernel)).mpr (by decide +kernel)

/-- An interrupted `poll` ends the process with a failure and leaves the client
behind. -/
theorem interrupted_leaves :
    Regular interrupted ∧ exitStatus (main 2 interrupted.boot) = some 1 ∧
      (finalState (main 2 interrupted.boot)).opened = [5] ∧
      ¬CleanedUp 1 (finalState (main 2 interrupted.boot)) := by
  refine ⟨interrupted_regular, by decide +kernel, by decide +kernel, ?_⟩
  exact fun cleaned => absurd cleaned.success (by decide)

end CExamples.IoMultiplexing.Poll
