import CExamples.IoMultiplexing.Keeping
import CExamples.IoMultiplexing.Select.Run
import CExamples.Sequence.Used

/-!
# What the select server leaves behind

When `main` fails before its loop it closes and removes what it has made, and when it
leaves its loop it cleans everything up.  An interrupted `select` only leads back to the
look at `exit_flag`.  But a `select` or an allocation that fails, and an `accept` that
fails or is interrupted, end the process at once, with the clients, the listening socket
and `SOCKET_PATH` left.  So the answers that were used decide what a run leaves behind.
-/

namespace CExamples.IoMultiplexing.Select

open CExamples.Program
open CExamples.Sequence

/-- What the answers of `accept` should be. -/
def Returns {α : Type} (reply : Reply α) : Prop :=
  ∃ value, reply = .returned value

theorem not_returns_interrupted {α : Type} (sigint : Bool) :
    ¬Returns (.interrupted sigint : Reply α) := by
  simp [Returns]

theorem not_returns_failed {α : Type} : ¬Returns (.failed : Reply α) := by
  simp [Returns]

/-- `select` or an allocation has failed, or `accept` has failed or was interrupted. -/
def Broken (environment : Environment (List Int)) (world : World (List Int)) : Prop :=
  Spoilt (· ≠ .failed) environment.ready world.ready ∨
    Spoilt Returns environment.incoming world.incoming ∨
    Spoilt (· = true) environment.allocations world.allocations

/-- The status with which the process has terminated, by returning from `main` or by
`exit`. -/
def exitStatus : EStateM.Result (Halt Call) (World (List Int)) Int → Option Int
  | .ok status _ => some status
  | .error (.exit status _) _ => some status
  | _ => none

/-- Every client and the listening socket are closed, and `SOCKET_PATH` is removed. -/
structure LeavesNothing (world : World (List Int)) : Prop where
  clients : world.opened = []
  listening : world.listening = none
  socketPath : world.socketPath = false

/-- The server gets to its loop. -/
def Starts (environment : Environment (List Int)) : Prop :=
  ∃ sockfd, environment.socketReply = some sockfd ∧ sockfd < fdSetsize ∧
    environment.bindReply = true ∧ environment.listenReply = true

/-- In the loop, nothing has failed so far. -/
structure Calm (environment : Environment (List Int)) (world : World (List Int)) : Prop where
  ready : UsedUp (· ≠ .failed) environment.ready world.ready
  incoming : UsedUp Returns environment.incoming world.incoming
  allocations : UsedUp (· = true) environment.allocations world.allocations
  socketPath : world.socketPath = true

/-- The loop is left by `exit` only after a failure, with the name of the socket left. -/
def Quits (environment : Environment (List Int)) (reason : Halt Call)
    (world : World (List Int)) : Prop :=
  ∀ code message, reason = .exit code message →
    code = 1 ∧ Broken environment world ∧ world.socketPath = true

variable {environment : Environment (List Int)} {world : World (List Int)}

theorem Calm.not_broken (calm : Calm environment world) : ¬Broken environment world := by
  rintro (ready | incoming | allocations)
  · exact calm.ready.not_spoilt ready
  · exact calm.incoming.not_spoilt incoming
  · exact calm.allocations.not_spoilt allocations

theorem indifferent_calm : Indifferent (Calm environment) (Quits environment) where
  keeps := by
    rintro world next ⟨ready, incoming, allocations, socketPath⟩ calm
    constructor
    · exact ready ▸ calm.ready
    · exact incoming ▸ calm.incoming
    · exact allocations ▸ calm.allocations
    · exact socketPath ▸ calm.socketPath
  halts reason world _ stays code message exits := absurd exits (stays code message)

/-! ## The calls that can fail -/

/-- What an answer leaves. -/
def Answered (environment : Environment (List Int)) (fine : Prop) (next : World (List Int)) :
    Prop :=
  (fine → Calm environment next) ∧
    (¬fine → Broken environment next ∧ next.socketPath = true)

section Calls

theorem wp_allocate_calm (calm : Calm environment world) {halt : Halt Call → World _ → Prop} :
    wp allocate (fun succeeds next => Answered environment (succeeds = true) next) halt world := by
  have allocations := calm.allocations
  simp only [allocate, wp_bind, wp_get]
  rcases allocationsEq : world.allocations with _ | ⟨succeeds, rest⟩
  · exact ⟨fun _ => calm, fun failed => absurd rfl failed⟩
  · rw [allocationsEq] at allocations
    constructor
    · exact fun good => ⟨calm.ready, calm.incoming, allocations.tail good, calm.socketPath⟩
    · exact fun bad => ⟨Or.inr (Or.inr (allocations.spoilt bad)), calm.socketPath⟩

theorem wp_multiplex_calm (calm : Calm environment world) :
    wp (multiplex .select)
      (fun reply next => Answered environment (reply ≠ .failed) next)
      (Quits environment) world := by
  have ready := calm.ready
  simp only [multiplex, wp_bind, wp_get]
  rcases readyEq : world.ready with _ | ⟨_ | sigint | _, rest⟩
  · exact fun _ _ exits => absurd exits (by simp)
  · rw [readyEq] at ready
    refine ⟨fun good => ?_, fun bad => absurd (by simp) bad⟩
    exact ⟨ready.tail good, calm.incoming, calm.allocations, calm.socketPath⟩
  · rw [readyEq] at ready
    refine ⟨fun good => ?_, fun bad => absurd (by simp) bad⟩
    exact ⟨ready.tail good, calm.incoming, calm.allocations, calm.socketPath⟩
  · rw [readyEq] at ready
    exact ⟨fun good => absurd rfl good, fun bad => ⟨Or.inl (ready.spoilt bad), calm.socketPath⟩⟩

theorem wp_accept_calm (calm : Calm environment world) :
    wp accept (fun reply next => Answered environment (Returns reply) next) (Quits environment)
      world := by
  have incoming := calm.incoming
  simp only [accept, wp_bind, wp_get]
  rcases incomingEq : world.incoming with _ | ⟨⟨fd, replies⟩ | sigint | _, rest⟩
  · exact fun _ _ exits => absurd exits (by simp)
  · rw [incomingEq] at incoming
    by_cases acceptable : world.Acceptable fd
    · simp only [if_pos acceptable]
      refine ⟨fun _ => ?_, fun bad => absurd ⟨fd, rfl⟩ bad⟩
      exact ⟨calm.ready, incoming.tail ⟨_, rfl⟩, calm.allocations, calm.socketPath⟩
    · simp only [if_neg acceptable]
      exact fun _ _ exits => absurd exits (by simp)
  · rw [incomingEq] at incoming
    have broken := incoming.spoilt (not_returns_interrupted sigint)
    refine ⟨fun returned => absurd returned (not_returns_interrupted sigint), fun _ => ?_⟩
    exact ⟨Or.inr (Or.inl broken), calm.socketPath⟩
  · rw [incomingEq] at incoming
    have broken := incoming.spoilt not_returns_failed
    refine ⟨fun returned => absurd returned not_returns_failed, fun _ => ?_⟩
    exact ⟨Or.inr (Or.inl broken), calm.socketPath⟩

theorem quits_exit {α : Type} (broken : Broken environment world)
    (socketPath : world.socketPath = true) (message : String)
    {post : α → World (List Int) → Prop} :
    wp (exit message : SelectSys α) post (Quits environment) world := by
  rintro code text ⟨⟩
  exact ⟨rfl, broken, socketPath⟩

end Calls

/-! ## What the functions keep -/

theorem keeps_removeClient (server : Server) (idx : UInt64) :
    Keeps (Calm environment) (Quits environment) (removeClient server idx) := by
  rw [removeClient]
  split
  · apply (Keeps.load indifferent_calm.fault _ _).bind
    intro lastSocket
    apply (Keeps.store indifferent_calm.fault _ _ _).bind
    exact fun clientSockets => Keeps.pure _
  · exact Keeps.pure _

theorem keeps_buildReadfds (sockfd : Int) (server : Server) :
    Keeps (Calm environment) (Quits environment) (buildReadfds sockfd server) := by
  refine Keeps.loop ?_ indifferent_calm.fuel _ _
  intro build
  rw [buildRound]
  split
  · apply (Keeps.load indifferent_calm.fault _ _).bind
    intro sd
    split
    · exact Keeps.pure _
    · split
      · apply (indifferent_calm.print _).bind
        intro _
        apply (indifferent_calm.close sd).bind
        intro _
        apply (keeps_removeClient _ _).bind
        exact fun server => Keeps.pure _
      · exact Keeps.pure _
  · exact Keeps.pure _

theorem keeps_storeClient (server : Server) (newSocket : Int) :
    Keeps (Calm environment) (Quits environment) (storeClient server newSocket) := by
  rw [storeClient]
  apply (Keeps.store indifferent_calm.fault _ _ _).bind
  intro clientSockets
  exact (indifferent_calm.print _).bind fun _ => Keeps.pure _

theorem keeps_growClients (server : Server) :
    Keeps (Calm environment) (Quits environment) (growClients server) := by
  intro world calm
  rw [growClients]
  apply wp_seq (wp_allocate_calm calm)
  rintro (_ | _) next ⟨good, bad⟩
  · obtain ⟨broken, socketPath⟩ := bad (by decide)
    exact quits_exit broken socketPath _
  · exact Keeps.get.bind (fun _ => Keeps.pure _) next (good rfl)

theorem keeps_acceptClient (sockfd : Int) (readfds : FdSet) (server : Server) :
    Keeps (Calm environment) (Quits environment) (acceptClient sockfd readfds server) := by
  rw [acceptClient]
  split
  · intro world calm
    apply wp_seq (wp_accept_calm calm)
    rintro (newSocket | sigint | _) next ⟨good, bad⟩
    · have calm := good ⟨newSocket, rfl⟩
      simp only
      split
      · exact ((indifferent_calm.print _).bind fun _ =>
          (indifferent_calm.close newSocket).bind fun _ => Keeps.pure _) next calm
      · split
        · exact ((keeps_growClients server).bind fun server =>
            keeps_storeClient server newSocket) next calm
        · exact keeps_storeClient server newSocket next calm
    · obtain ⟨broken, socketPath⟩ := bad (not_returns_interrupted sigint)
      exact quits_exit broken socketPath _
    · obtain ⟨broken, socketPath⟩ := bad not_returns_failed
      exact quits_exit broken socketPath _
  · exact Keeps.pure _

theorem keeps_clientIo (readfds : FdSet) (server : Server) :
    Keeps (Calm environment) (Quits environment) (clientIo readfds server) := by
  refine Keeps.loop ?_ indifferent_calm.fuel _ _
  rintro ⟨i, server⟩
  rw [clientIoRound]
  split
  · apply (Keeps.load indifferent_calm.fault _ _).bind
    intro sd
    split
    · exact Keeps.pure _
    · split
      · apply (indifferent_calm.readWord sd).bind
        rintro (_ | _)
        · apply (indifferent_calm.close sd).bind
          intro _
          exact (keeps_removeClient _ _).bind fun server => Keeps.pure _
        · exact Keeps.pure _
      · exact Keeps.pure _
  · exact Keeps.pure _

/-- `select` is interrupted, or the round goes to its end. -/
theorem keeps_mainBody (sockfd : Int) (server : Server) :
    Keeps (Calm environment) (Quits environment) (mainBody sockfd server) := by
  rw [mainBody]
  apply (keeps_buildReadfds sockfd server).bind
  intro build world calm
  rw [select, wp_bind, wp_bind, wp_modify, wp_bind]
  have alike : world.Alike (world.record (.selecting (build.maxFd + 1))) := ⟨rfl, rfl, rfl, rfl⟩
  apply wp_conseq (wp_multiplex_calm (indifferent_calm.keeps _ _ alike calm))
  rintro (ready | sigint | _) next ⟨good, bad⟩
  · exact (keeps_acceptClient sockfd _ build.server).bind (fun server => keeps_clientIo _ server)
      next (good (by simp))
  · exact good (by simp)
  · obtain ⟨broken, socketPath⟩ := bad fun other => other rfl
    intro code text exits
    cases exits
    exact ⟨rfl, broken, socketPath⟩

theorem keeps_mainRound (sockfd : Int) (server : Server) :
    Keeps (Calm environment) (Quits environment) (mainRound sockfd server) := by
  rw [mainRound]
  apply indifferent_calm.readExitFlag.bind
  rintro (_ | _)
  · exact (keeps_mainBody sockfd server).bind fun server => Keeps.pure _
  · exact Keeps.pure _

/-! ## The beginning and the end -/

/-- Before its loop `main` exits only with nothing left. -/
def GivesUp (environment : Environment (List Int)) (reason : Halt Call)
    (world : World (List Int)) : Prop :=
  ∀ code message, reason = .exit code message →
    code = 1 ∧ ¬Starts environment ∧ LeavesNothing world ∧ ¬Broken environment world

/-- The answers are not used before the loop. -/
theorem not_broken_of_boot (ready : world.ready = environment.ready)
    (incoming : world.incoming = environment.incoming)
    (allocations : world.allocations = environment.allocations) : ¬Broken environment world := by
  rintro (spoilt | spoilt | spoilt)
  · rw [ready] at spoilt
    exact (UsedUp.start _ _).not_spoilt spoilt
  · rw [incoming] at spoilt
    exact (UsedUp.start _ _).not_spoilt spoilt
  · rw [allocations] at spoilt
    exact (UsedUp.start _ _).not_spoilt spoilt

/-- The listening socket is closed, and its name is removed. -/
theorem wp_abandon_calm {α : Type} {sockfd : Int} (listening : world.listening = some sockfd)
    (idle : world.opened = []) (unbroken : ¬Broken environment world)
    (fails : ¬Starts environment) (message : String) {post : α → World (List Int) → Prop} :
    wp (abandon sockfd message) post (GivesUp environment) world := by
  rw [abandon, wp_bind, socketClose, wp_bind, wp_close_listening listening]
  rintro code text ⟨⟩
  exact ⟨rfl, fails, ⟨idle, rfl, rfl⟩, unbroken⟩

/-- `socket` returns a descriptor or -1. -/
theorem wp_start_calm
    (socketReply : ∀ sockfd, environment.socketReply = some sockfd → 0 ≤ sockfd) :
    wp start (fun _ next => Starts environment ∧ Calm environment next) (GivesUp environment)
      environment.boot := by
  have unbroken {world : World (List Int)} := @not_broken_of_boot environment world
  rw [start, unlink, socket, wp_bind, wp_modify, wp_bind, wp_bind, wp_get]
  cases socketEq : environment.socketReply with
  | none =>
      simp only [Environment.boot, socketEq, wp_pure, if_true]
      rintro code text ⟨⟩
      refine ⟨rfl, ?_, ⟨rfl, rfl, rfl⟩, unbroken rfl rfl rfl⟩
      rintro ⟨sockfd, created, _⟩
      rw [socketEq] at created
      cases created
  | some sockfd =>
      have notNegative := socketReply sockfd socketEq
      have created : sockfd ≠ -1 := by omega
      have starts (started : Starts environment) : sockfd < fdSetsize ∧
          environment.bindReply = true ∧ environment.listenReply = true := by
        obtain ⟨other, otherEq, fits⟩ := started
        rw [socketEq] at otherEq
        exact Option.some.inj otherEq ▸ fits
      simp only [Environment.boot, socketEq, wp_bind, wp_set, wp_pure, if_neg created, bind, listen,
        wp_get]
      cases bindEq : environment.bindReply with
      | false =>
          apply wp_abandon_calm rfl rfl (unbroken rfl rfl rfl)
          intro started
          rw [(starts started).2.1] at bindEq
          cases bindEq
      | true =>
          rw [if_pos rfl]
          cases listenEq : environment.listenReply with
          | false =>
              apply wp_abandon_calm rfl rfl (unbroken rfl rfl rfl)
              intro started
              rw [(starts started).2.2] at listenEq
              cases listenEq
          | true =>
              by_cases small : sockfd < fdSetsize
              · have inside : (decide (sockfd < 0) || decide (sockfd ≥ fdSetsize)) = false := by
                  simp [notNegative, small]
                simp only [Bool.false_eq_true, if_false, inside]
                exact ⟨⟨sockfd, socketEq, small, bindEq, listenEq⟩,
                  .start _ _, .start _ _, .start _ _, rfl⟩
              · have outside : (decide (sockfd < 0) || decide (sockfd ≥ fdSetsize)) = true := by
                  simp [Int.not_lt.mp small]
                simp only [outside, if_true, if_pos (show sockfd ≥ 0 from notNegative)]
                exact wp_abandon_calm rfl rfl (unbroken rfl rfl rfl)
                  (fun started => absurd (starts started).1 small) _

/-- The clients before index `i` are closed. -/
def Cleaning (environment : Environment (List Int)) (sockfd : Int) (fds : List Int) (i : Nat)
    (_ : Unit) (next : World (List Int)) : Prop :=
  next.Sound sockfd (fds.drop i) ∧ Calm environment next

theorem round_cleaning {sockfd : Int} {fds spare : List Int} {i : Nat} (inside : i < fds.length)
    (cleaning : Cleaning environment sockfd fds i () world)
    {halt : Halt Call → World (List Int) → Prop} :
    wp (do
        let fd ← load (fds ++ spare) i
        if decide (fd ≥ 0) then socketClose fd else pure ())
      (Cleaning environment sockfd fds (i + 1)) halt world := by
  obtain ⟨sound, calm⟩ := cleaning
  have loaded : (load (fds ++ spare) i : SelectSys Int) = pure fds[i] :=
    load_eq_pure (by rw [List.getElem?_append_left inside, List.getElem?_eq_getElem inside])
  rw [← List.getElem_cons_drop inside] at sound
  obtain ⟨isOpen, notListening, closed⟩ := sound.closable
  have notNegative : fds[i] ≥ 0 := (sound.range fds[i] List.mem_cons_self).1
  rw [loaded, pure_bind, if_pos (decide_eq_true notNegative), socketClose, wp_bind,
    wp_close isOpen notListening]
  exact ⟨closed, indifferent_calm.keeps world _ ⟨rfl, rfl, rfl, rfl⟩ calm⟩

/-- After the loop everything is cleaned up. -/
theorem wp_finish {sockfd : Int} {server : Server} (holds : Holds sockfd server world)
    (calm : Calm environment world) {halt : Halt Call → World (List Int) → Prop} :
    wp (finish sockfd server)
      (fun status next => status = 0 ∧ LeavesNothing next ∧ ¬Broken environment next) halt
      world := by
  obtain ⟨fds, spare, rfl, few, -, sound⟩ := holds
  have count : (layout fds spare).clientCount.toNat = fds.length := toNat_sizeT (by omega)
  rw [finish, shutdown, count, wp_bind]
  have closes (i : Nat) (_ : Unit) (next : World (List Int)) (_ : 0 ≤ i)
      (inside : i < 0 + fds.length) (cleaning : Cleaning environment sockfd fds i () next) :=
    @round_cleaning environment next sockfd _ spare i (by omega) cleaning halt
  apply wp_conseq (wp_forRange _ 0 ⟨sound, calm⟩ closes)
  rintro - next ⟨sound, calm⟩
  rw [Nat.zero_add, List.drop_length] at sound
  rw [wp_bind, socketClose, wp_bind, wp_close_listening sound.listening]
  have closed : next.opened = [] := List.nil_perm.mp sound.perm
  exact ⟨rfl, ⟨closed, rfl, rfl⟩, calm.not_broken⟩

/-! ## Every run -/

/-- How a process ends. -/
structure Ends (environment : Environment (List Int)) (status : Int) (world : World (List Int)) :
    Prop where
  /-- Nothing is left behind exactly if nothing failed in the loop. -/
  tidy : LeavesNothing world ↔ ¬Broken environment world
  /-- It reports success exactly if the loop was reached, too. -/
  success : status = 0 ↔ Starts environment ∧ ¬Broken environment world

/-- How the server halts. -/
def Halts (environment : Environment (List Int)) (reason : Halt Call) (world : World (List Int)) :
    Prop :=
  ∀ code message, reason = .exit code message → Ends environment code world

theorem GivesUp.halts {reason : Halt Call} (givesUp : GivesUp environment reason world) :
    Halts environment reason world := by
  intro code message exits
  obtain ⟨rfl, unstarted, tidy, unbroken⟩ := givesUp code message exits
  exact ⟨iff_of_true tidy unbroken, iff_of_false (by decide) fun both => unstarted both.1⟩

theorem Quits.halts {reason : Halt Call} (quits : Quits environment reason world) :
    Halts environment reason world := by
  intro code message exits
  obtain ⟨rfl, broken, socketPath⟩ := quits code message exits
  have left : ¬LeavesNothing world := by
    intro tidy
    rw [tidy.socketPath] at socketPath
    cases socketPath
  exact ⟨iff_of_false left (not_not_intro broken),
    iff_of_false (by decide) fun both => both.2 broken⟩

/-- How a run of the server ends, if it does. -/
theorem wp_main_ends
    (socketReply : ∀ sockfd, environment.socketReply = some sockfd → 0 ≤ sockfd) (rounds : Nat) :
    wp (main rounds) (fun status next => Ends environment status next) (Halts environment)
      environment.boot := by
  rw [main, wp_bind]
  refine wp_mono (wp_and (wp_start environment) (wp_start_calm socketReply)) ?_
    fun _ _ halted => halted.2.halts
  rintro ⟨sockfd, server⟩ next ⟨⟨listening, holds⟩, starts, calm⟩
  rw [wp_bind]
  have round (server : Server) (world : World (List Int))
      (kept : Holds sockfd server world ∧ Calm environment world) :
      wp (mainRound sockfd server)
        (Sum.elim (fun server next => Holds sockfd server next ∧ Calm environment next)
          fun server next => Holds sockfd server next ∧ Calm environment next)
        (Halts environment) world := by
    refine wp_mono (wp_and (wp_mainRound listening kept.1)
      (keeps_mainRound sockfd server world kept.2)) ?_ fun _ _ quits => quits.2.halts
    rintro (server | server) next ⟨holds, calm⟩
    · exact ⟨holds, calm⟩
    · exact ⟨holds, calm⟩
  have loops := wp_loop_partial round (fun _ _ _ _ _ exits => absurd exits (by simp)) rounds ⟨holds, calm⟩
  apply wp_conseq loops
  rintro server next ⟨holds, calm⟩
  apply wp_conseq (wp_finish holds calm)
  rintro status final ⟨rfl, tidy, unbroken⟩
  exact ⟨iff_of_true tidy unbroken, iff_of_true rfl ⟨starts, unbroken⟩⟩

/-- A client connects, and SIGINT arrives during the next `select`. -/
def signalled : Environment (List Int) :=
  { (quiet : Environment (List Int)) with
    ready := [.returned [3], .interrupted true]
    incoming := [.returned (5, [])] }

end CExamples.IoMultiplexing.Select
