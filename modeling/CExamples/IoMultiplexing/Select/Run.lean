import CExamples.IoMultiplexing.Select.Service

/-!
# Runs of the select server

At every head of the main loop the array holds the open connections, and all of
them can be passed to `select`, because `accept` is the only source of
descriptors and the large ones are closed at once.  So the loop that builds
`readfds` passes every client on and disconnects none.
-/

namespace CExamples.IoMultiplexing.Select

open CExamples.Program
open CExamples.Sequence

variable {sockfd : Int} {fds spare readfds : List Int} {world : World (List Int)}

/-- The server holds the kernel's open connections, in an array of moderate
size, and none is too large for `select`. -/
def Holds (sockfd : Int) (server : Server) (world : World (List Int)) : Prop :=
  ∃ fds spare,
    server = layout fds spare ∧
    fds.length + spare.length ≤ 2 ^ 32 ∧
    (∀ fd ∈ fds, fd < fdSetsize) ∧
    world.Sound sockfd fds

/-! ## Building the set -/

/-- The local variables after the first clients were put into the set. -/
def Building (sockfd : Int) (fds spare : List Int) (world : World (List Int)) (build : Build)
    (next : World (List Int)) : Prop :=
  ∃ before rest,
    fds = before ++ rest ∧
    build.i = sizeT before.length ∧
    build.server = layout fds spare ∧
    build.readfds = before.reverse ++ [sockfd] ∧
    Highest build.maxFd (sockfd :: before) ∧
    next = world

/-- What the loop leaves: all clients and the listening socket are in the set. -/
def Built (sockfd : Int) (fds spare : List Int) (world : World (List Int)) (build : Build)
    (next : World (List Int)) : Prop :=
  build.server = layout fds spare ∧
    build.readfds = fds.reverse ++ [sockfd] ∧
    Highest build.maxFd (sockfd :: fds) ∧
    next = world

theorem round_build (sound : world.Sound sockfd fds) (inRange : ∀ fd ∈ fds, fd < fdSetsize) :
    Round buildRound (Building sockfd fds spare world)
      (fun build _ => build.server.clientCount.toNat - build.i.toNat)
      (Built sockfd fds spare world) (Stopped sockfd) := by
  rintro ⟨i, server, set, maxFd⟩ next ⟨before, rest, rfl, rfl, rfl, rfl, highest, rfl⟩
  have few := sound.length_le
  rw [List.length_append] at few
  have countEq : (layout (before ++ rest) spare).clientCount =
      sizeT (before.length + rest.length) := by
    simp [layout]
  cases rest with
  | nil =>
      have outside : ¬sizeT before.length < (layout (before ++ []) spare).clientCount := by
        simp [layout]
      rw [buildRound, if_neg outside, wp_pure]
      rw [List.append_nil] at sound ⊢
      exact ⟨rfl, rfl, highest, rfl⟩
  | cons fd rest =>
      rw [List.length_cons] at few
      have inside : sizeT before.length < (layout (before ++ fd :: rest) spare).clientCount := by
        rw [countEq, List.length_cons, sizeT_lt_sizeT (by omega) (by omega)]
        omega
      have member : fd ∈ before ++ fd :: rest := by simp
      have range := sound.range fd member
      have small := inRange fd member
      have selectable : fdInSelectRange fd = true := by
        simp [fdInSelectRange, range.1, small]
      simp only [buildRound, if_pos inside, toNat_sizeT (show before.length < 2 ^ 64 by omega)]
      rw [load_clientSockets, pure_bind, if_neg (by omega), if_neg (by omega), wp_pure]
      refine ⟨⟨before ++ [fd], rest, ?_, ?_, rfl, ?_, ?_, rfl⟩, ?_⟩
      · simp
      · simp [sizeT_add_one]
      · simp [fdSetSafe, selectable]
      · exact highest.concat
      · simp only [countEq, sizeT_add_one]
        rw [List.length_cons, toNat_sizeT (by omega), toNat_sizeT (by omega)]
        omega

/-- No client is disconnected while the set is built. -/
theorem wp_buildReadfds (sound : world.Sound sockfd fds) (inRange : ∀ fd ∈ fds, fd < fdSetsize)
    (listening : fdInSelectRange sockfd = true) :
    wp (buildReadfds sockfd (layout fds spare)) (Built sockfd fds spare world) (Stopped sockfd)
      world := by
  refine wp_loop (round_build sound inRange) ⟨[], fds, rfl, rfl, rfl, ?_, ?_, rfl⟩ ?_
  · simp [fdSetSafe, listening]
  · exact ⟨List.mem_cons_self, fun other member => by simp_all⟩
  · exact Nat.lt_succ_of_le (Nat.sub_le _ _)

/-! ## New connections -/

/-- Growing a full array leaves the clients in place and adds spare slots. -/
theorem wp_growClients (sound : world.Sound sockfd fds) {clients : List Int}
    (few : clients.length ≤ 2 ^ 31) :
    wp (growClients (layout clients []))
      (fun server next => ∃ slot spare,
        server = layout clients (slot :: spare) ∧
        clients.length + (spare.length + 1) ≤ 2 ^ 32 ∧
        next.Sound sockfd fds)
      (Stopped sockfd) world := by
  obtain ⟨more, moreEq⟩ := grown_eq_succ clients.length
  have bounds := grown_le few
  have capacityEq : (layout clients []).clientCapacity = sizeT clients.length := rfl
  have newCap := newCap_eq clients.length (by omega)
  rw [moreEq] at bounds newCap
  have slots : slotsOf (sizeT (clients.length + (more + 1))) 4 = clients.length + (more + 1) :=
    slotsOf_sizeT (by decide) (show _ * 4 < 2 ^ 64 by omega)
  simp only [growClients, capacityEq, newCap, slots]
  apply wp_seq (wp_allocate sound)
  rintro (_ | _) next sound
  · exact sound.halted_exit 1 "realloc"
  · simp only [if_true, wp_bind, wp_get, wp_pure]
    refine ⟨next.junk clients.length,
      (List.range' (clients.length + 1) more).map next.junk, ?_, by simpa using bounds, sound⟩
    have socketsEq : (layout clients []).clientSockets = clients := List.append_nil clients
    rw [socketsEq, resize_of_le _ (by omega), Nat.add_sub_cancel_left, List.range'_succ]
    simp [layout]

theorem wp_storeClient {newSocket slot : Int} {clients : List Int}
    (sound : world.Sound sockfd (newSocket :: clients))
    (inRange : ∀ fd ∈ newSocket :: clients, fd < fdSetsize)
    (few : clients.length + (spare.length + 1) ≤ 2 ^ 32) :
    wp (storeClient (layout clients (slot :: spare)) newSocket) (Holds sockfd) (Stopped sockfd)
      world := by
  have countEq : (layout clients (slot :: spare)).clientCount = sizeT clients.length := rfl
  simp only [storeClient, countEq, toNat_sizeT (show clients.length < 2 ^ 64 by omega)]
  rw [store_eq_pure _ (by simp [layout]), pure_bind, wp_bind, print, wp_modify]
  refine ⟨clients ++ [newSocket], spare, ?_, ?_, ?_, ?_⟩
  · simp [layout, sizeT_add_one, Nat.add_assoc, Nat.add_comm 1]
  · simp
    omega
  · intro fd member
    exact inRange fd (by simpa [or_comm] using member)
  · have expected : Expected (.established newSocket) := inRange newSocket List.mem_cons_self
    exact (sound.printed expected fun _ => rfl).reorder (by simp)

theorem wp_acceptClient (sound : world.Sound sockfd fds) (inRange : ∀ fd ∈ fds, fd < fdSetsize)
    (few : fds.length + spare.length ≤ 2 ^ 32) :
    wp (acceptClient sockfd readfds (layout fds spare)) (Holds sockfd) (Stopped sockfd)
      world := by
  unfold acceptClient
  split
  · apply wp_seq (wp_accept sound)
    rintro (newSocket | _ | _) next sound
    · have count := sound.length_le
      rw [List.length_cons] at count
      by_cases large : newSocket ≥ fdSetsize
      · have expected : Expected (.acceptedOutOfRange newSocket) := trivial
        obtain ⟨isOpen, notListening, closed⟩ := (sound.printed expected fun _ => rfl).closable
        simp only [if_pos large, wp_bind, print, wp_modify]
        rw [wp_close isOpen notListening, wp_pure]
        exact ⟨fds, spare, rfl, few, inRange, closed⟩
      · have storable : ∀ fd ∈ newSocket :: fds, fd < fdSetsize := by
          rintro fd (_ | ⟨_, member⟩)
          · exact Int.not_le.mp large
          · exact inRange fd member
        have full : (layout fds spare).clientCount = (layout fds spare).clientCapacity ↔
            spare = [] := by
          simp only [layout]
          rw [sizeT_inj (by omega) (by omega), ← List.length_eq_zero_iff]
          omega
        simp only [if_neg large, full]
        rcases spare with _ | ⟨slot, spare⟩
        · rw [if_pos rfl]
          apply wp_seq (wp_growClients sound (by omega))
          rintro server next ⟨slot, spare, rfl, bounds, sound⟩
          exact wp_storeClient sound storable bounds
        · rw [if_neg (List.cons_ne_nil slot spare)]
          exact wp_storeClient sound storable few
    · exact sound.halted_exit 1 "Accept error"
    · exact sound.halted_exit 1 "Accept error"
  · exact ⟨fds, spare, rfl, few, inRange, sound⟩

/-! ## The main loop -/

theorem wp_select {nfds : Int} (sound : (world.record (.selecting nfds)).Sound sockfd fds) :
    wp (select nfds readfds) (fun _ next => next.Sound sockfd fds) (Stopped sockfd) world := by
  simp only [select, wp_bind, wp_modify]
  apply wp_conseq (wp_multiplex sound (by simp))
  rintro (ready | _ | _) next sound <;> exact sound

theorem wp_mainBody (listening : fdInSelectRange sockfd = true) {server : Server}
    (holds : Holds sockfd server world) :
    wp (mainBody sockfd server) (Holds sockfd) (Stopped sockfd) world := by
  obtain ⟨fds, spare, rfl, few, inRange, sound⟩ := holds
  rw [mainBody]
  apply wp_seq (wp_buildReadfds sound inRange listening)
  rintro build next ⟨serverEq, -, highest, rfl⟩
  apply wp_seq (wp_select (sound.selecting highest))
  rintro (readfds | _ | _) next sound
  · simp only [serverEq, wp_bind]
    apply wp_conseq (wp_acceptClient sound inRange few)
    rintro server next ⟨fds, spare, rfl, few, inRange, sound⟩
    refine wp_mono (wp_clientIo sound) ?_ fun _ _ halted => halted.2
    rintro server next ⟨left, spare', rfl, slots, subset, sound, -⟩
    exact ⟨left, spare', rfl, slots ▸ few, fun fd member => inRange fd (subset member), sound⟩
  · simp only [serverEq, wp_pure]
    exact ⟨fds, spare, rfl, few, inRange, sound⟩
  · exact sound.halted_exit 1 "Select error"

/-- A round of the main loop keeps exactly the open connections in the array. -/
theorem wp_mainRound (listening : fdInSelectRange sockfd = true) {server : Server}
    (holds : Holds sockfd server world) :
    wp (mainRound sockfd server) (Sum.elim (Holds sockfd) (Holds sockfd)) (Stopped sockfd)
      world := by
  obtain ⟨fds, spare, rfl, few, inRange, sound⟩ := holds
  rw [mainRound]
  apply wp_seq (wp_readExitFlag sound)
  rintro (_ | _) next sound
  · rw [if_neg Bool.false_ne_true, wp_bind]
    exact wp_mainBody listening ⟨fds, spare, rfl, few, inRange, sound⟩
  · exact ⟨fds, spare, rfl, few, inRange, sound⟩

/-! ## The beginning -/

/-- The ways in which `main` ends before its loop. -/
def StartHalted (reason : Halt Call) (next : World (List Int)) : Prop :=
  ∃ sockfd, Halted sockfd reason next

/-- Closing the listening socket leaves nothing to serve. -/
theorem wp_socketClose (idle : world.Idle) (listening : world.listening = some sockfd)
    {post : Unit → World (List Int) → Prop} {halt : Halt Call → World (List Int) → Prop}
    (closed : ∀ next, next.Idle → post () next) : wp (socketClose sockfd) post halt world := by
  rw [socketClose, wp_bind, wp_close_listening listening]
  exact closed _ (idle.bound none)

theorem wp_unlink_exit {α : Type} (idle : world.Idle) (message : String)
    {post : α → World (List Int) → Prop} :
    wp (do
        unlink
        exit message) post
      (fun reason next => StartHalted reason next ∧ ∀ call, reason ≠ .blocked call) world := by
  apply wp_seq idle.wp_unlink
  rintro - next ⟨idle, -⟩
  exact ⟨⟨0, (idle.halted_exit 0 1 message).toHalted⟩, nofun⟩

theorem wp_abandon {α : Type} (idle : world.Idle) (listening : world.listening = some sockfd)
    (message : String) {post : α → World (List Int) → Prop} :
    wp (abandon sockfd message) post
      (fun reason next => StartHalted reason next ∧ ∀ call, reason ≠ .blocked call) world := by
  rw [abandon, wp_bind]
  exact wp_socketClose idle listening fun next idle => wp_unlink_exit idle message

/-- `main` gets to its loop with no client and a small listening socket, or
exits. -/
theorem wp_start (environment : Environment (List Int)) :
    wp start (fun result next => fdInSelectRange result.1 = true ∧ Holds result.1 result.2 next)
      (fun reason next => StartHalted reason next ∧ ∀ call, reason ≠ .blocked call)
      environment.boot := by
  rw [start]
  apply wp_seq (World.Idle.boot environment).wp_unlink
  rintro - next ⟨idle, -⟩
  apply wp_seq idle.wp_socket
  rintro sockfd next ⟨idle, listening⟩
  split
  · exact ⟨⟨0, (idle.halted_exit 0 1 "socket").toHalted⟩, nofun⟩
  · rename_i opened
    apply wp_seq idle.wp_bind
    rintro isBound next ⟨idle, sameListening⟩
    have listening := sameListening.trans (listening opened)
    cases isBound with
    | false => exact wp_abandon idle listening "bind error"
    | true =>
        rw [if_neg (by decide)]
        apply wp_seq idle.wp_listen
        rintro listens next ⟨idle, sameListening⟩
        have listening := sameListening.trans listening
        cases listens with
        | false => exact wp_abandon idle listening "Listen error"
        | true =>
            rw [if_neg (by decide)]
            split
            · split
              · rw [wp_bind]
                exact wp_socketClose idle listening fun next idle => wp_unlink_exit idle _
              · exact wp_unlink_exit idle _
            · rename_i inRange
              refine ⟨?_, [], [], rfl, by decide, nofun, idle.sound listening⟩
              simpa [fdInSelectRange] using inRange

/-! ## Every head of the loop -/

theorem AtLoopHead.holds {environment : Environment (List Int)} {server : Server}
    (head : AtLoopHead environment sockfd server world) :
    fdInSelectRange sockfd = true ∧ Holds sockfd server world := by
  induction head with
  | entry run =>
      have started := wp_start environment
      rwa [wp_of_ok run] at started
  | again _ run ih =>
      have round := wp_mainRound ih.1 ih.2
      rw [wp_of_ok run] at round
      exact ⟨ih.1, round⟩

/-- What the client array has to be. -/
structure WellFormed (sockfd : Int) (server : Server) (world : World (List Int)) : Prop where
  countLe : server.clientCount ≤ server.clientCapacity
  sockets : server.clientSockets.length = server.clientCapacity.toNat
  listening : world.listening = some sockfd
  distinct : (server.clientSockets.take server.clientCount.toNat).Nodup
  inRange : ∀ fd ∈ server.clientSockets.take server.clientCount.toNat, 0 ≤ fd ∧ fd < fdSetsize
  opened : ∀ fd,
    fd ∈ server.clientSockets.take server.clientCount.toNat ↔ fd ∈ openDescriptors world.trace

theorem Holds.wellFormed {server : Server} (holds : Holds sockfd server world) :
    WellFormed sockfd server world := by
  obtain ⟨fds, spare, rfl, few, inRange, sound⟩ := holds
  have count : (layout fds spare).clientCount.toNat = fds.length := toNat_sizeT (by omega)
  have capacity : (layout fds spare).clientCapacity.toNat = fds.length + spare.length :=
    toNat_sizeT (by omega)
  have used : (layout fds spare).clientSockets.take (layout fds spare).clientCount.toNat = fds := by
    rw [count]
    simp [layout]
  refine ⟨?_, ?_, sound.listening, ?_, ?_, ?_⟩
  · rw [UInt64.le_iff_toNat_le, count, capacity]
    omega
  · rw [capacity]
    simp [layout]
  · rw [used]
    exact sound.nodup
  · rw [used]
    exact fun fd member => ⟨(sound.range fd member).1, inRange fd member⟩
  · rw [used]
    exact fun fd => sound.mem_opened.symm

/-- What the trace says about large descriptors and about the calls of `select`:
none was stored, the branch that disconnects a stored one was not taken, and
`select` was told the highest descriptor there was. -/
structure Selectable (sockfd : Int) (trace : List Event) : Prop where
  closedOnce : ClosedOnce trace
  notStored : ∀ fd, fdSetsize ≤ fd → .printed (.established fd) ∉ trace
  notDisconnected : ∀ fd, .printed (.clientOutOfRange fd) ∉ trace
  highest : ∀ later nfds earlier, trace = later ++ .selecting nfds :: earlier →
    Highest (nfds - 1) (sockfd :: openDescriptors earlier)

theorem selectable_of_orderly {trace : List Event} (orderly : Orderly sockfd trace) :
    Selectable sockfd trace where
  closedOnce := orderly.closedOnce
  notStored fd large printed := Int.not_le.mpr (orderly.expected printed) large
  notDisconnected _ printed := orderly.expected printed
  highest later nfds earlier split := by
    subst split
    exact orderly.legitimate

/-- At every head of the loop, in every run, the array holds exactly the open
connections and all of them are in the range of `select`; the next round, however
it ends, closes no descriptor twice, disconnects none as out of range, and calls
`select` with the highest one. -/
theorem atLoopHead_selectable {environment : Environment (List Int)} {server : Server}
    (head : AtLoopHead environment sockfd server world) :
    WellFormed sockfd server world ∧
      Selectable sockfd (finalState (mainRound sockfd server world)).trace ∧
      ∀ next, mainRound sockfd server world ≠ .error .fault next := by
  obtain ⟨listening, holds⟩ := head.holds
  have round := wp_mainRound listening holds
  refine ⟨holds.wellFormed, ?_, ?_⟩
  · refine finalState_of_wp (wp_mono round ?_ fun _ _ halted =>
      selectable_of_orderly halted.orderly)
    rintro (server | server) next ⟨_, _, _, _, _, sound⟩
    · exact selectable_of_orderly sound.orderly
    · exact selectable_of_orderly sound.orderly
  · intro next faults
    rw [wp_of_error faults] at round
    exact round.notFault rfl

/-- A client connects. -/
def greeted : Environment (List Int) :=
  { (quiet : Environment (List Int)) with
    ready := [.returned [3]]
    incoming := [.returned (5, [.endOfStream])] }

theorem greeted_selectable :
    ∃ server world, AtLoopHead greeted 3 server world ∧ world.opened = [5] ∧
      WellFormed 3 server world ∧
      Selectable 3 (finalState (mainRound 3 server world)).trace ∧
      ∀ next, mainRound 3 server world ≠ .error .fault next := by
  have head : AtLoopHead greeted 3 _ _ := .again (.entry rfl) rfl
  exact ⟨_, _, head, rfl, atLoopHead_selectable head⟩

end CExamples.IoMultiplexing.Select
