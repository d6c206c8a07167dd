import CExamples.IoMultiplexing.Poll.Service

/-!
# Runs of the poll server

The arrays of the server are a layout of the open connections at every head of
the main loop.  Accepting a connection appends a client, after doubling the
arrays if no slot is free; `poll` rewrites `revents` only; and the client loop
removes clients.
-/

namespace CExamples.IoMultiplexing.Poll

open CExamples.Program
open CExamples.Sequence

variable {sockfd : Int} {revents : UInt16} {world : World (List UInt16)} {fds : List Int}
  {clients : List Client} {free : Nat}

/-- The server holds the kernel's open connections, in arrays of moderate
size. -/
def Holds (sockfd : Int) (server : Server) (world : World (List UInt16)) : Prop :=
  ∃ revents clients free,
    server = layout sockfd revents clients free ∧
    clients.length + free ≤ 2 ^ 32 ∧
    world.Sound sockfd (clients.map Client.fd)

/-! ## New connections -/

/-- The loop that fills the slots of the grown arrays. -/
theorem fill_grown (more : Nat) (junk : Nat → Int) (junk' : Nat → PollFd) :
    (forRange (fun i (clientSockets, fds) => do
        let clientSockets ← store clientSockets i (-1)
        let fds ← store fds (i + 1) .unused
        pure (clientSockets, fds)) more clients.length
        (resize (layout sockfd revents clients 0).clientSockets (clients.length + more) junk,
          resize (layout sockfd revents clients 0).fds (clients.length + more + 1) junk') :
      PollSys (List Int × List PollFd)) =
      pure ((layout sockfd revents clients more).clientSockets,
        (layout sockfd revents clients more).fds) := by
  have socketsEq : (layout sockfd revents clients 0).clientSockets = clients.map Client.fd := by
    simp [layout]
  have fdsEq : (layout sockfd revents clients 0).fds =
      ⟨sockfd, pollin, revents⟩ :: clients.map Client.entry := by
    simp [layout]
  rw [socketsEq, fdsEq, resize_of_le _ (by simp), resize_of_le _ (by simp)]
  have filled := @forRange_store_pair Call (World (List UInt16)) Int PollFd (-1) .unused more
    (clients.map Client.fd) ((List.range' (clients.map Client.fd).length
      (clients.length + more - (clients.map Client.fd).length)).map junk)
    (⟨sockfd, pollin, revents⟩ :: clients.map Client.entry)
    ((List.range' (⟨sockfd, pollin, revents⟩ :: clients.map Client.entry).length
      (clients.length + more + 1 -
        (⟨sockfd, pollin, revents⟩ :: clients.map Client.entry).length)).map junk')
    (by simp) (by simp) (by simp)
  simpa [layout] using filled

/-- Growing full arrays leaves the clients in place and adds free slots. -/
theorem wp_growArrays (sound : world.Sound sockfd fds) (few : clients.length ≤ 2 ^ 31) :
    wp (growArrays (layout sockfd revents clients 0))
      (fun server next => ∃ free,
        server = layout sockfd revents clients (free + 1) ∧
        clients.length + (free + 1) ≤ 2 ^ 32 ∧
        next.Sound sockfd fds)
      (Stopped sockfd) world := by
  obtain ⟨free, freeEq⟩ := grown_eq_succ clients.length
  have bounds := grown_le few
  have capacityEq : (layout sockfd revents clients 0).clientCapacity = sizeT clients.length := rfl
  have newCap := newCap_eq clients.length (by omega)
  rw [freeEq] at bounds newCap
  have slots : slotsOf (sizeT (clients.length + (free + 1))) 4 = clients.length + (free + 1) :=
    slotsOf_sizeT (by decide) (show _ * 4 < 2 ^ 64 by omega)
  have slots' : slotsOf (sizeT (clients.length + (free + 1) + 1)) 8 =
      clients.length + (free + 1) + 1 :=
    slotsOf_sizeT (by decide) (show _ * 8 < 2 ^ 64 by omega)
  simp only [growArrays, capacityEq, newCap, sizeT_add_one, slots, slots',
    toNat_sizeT (show clients.length + (free + 1) < 2 ^ 64 by omega),
    toNat_sizeT (show clients.length < 2 ^ 64 by omega), Nat.add_sub_cancel_left]
  apply wp_seq (wp_allocate sound)
  rintro (_ | _) next sound
  · exact sound.halted_exit 1 "realloc"
  · simp only [if_true, wp_bind, wp_get]
    apply wp_conseq (wp_allocate sound)
    rintro (_ | _) next sound
    · exact sound.halted_exit 1 "realloc"
    · rw [if_pos rfl, fill_grown]
      exact ⟨free, rfl, bounds, sound⟩

/-- The free slot after the last client takes a new one. -/
theorem store_newSocket (newSocket : Int) (small : clients.length + 1 < 2 ^ 64)
    {post : Server → World (List UInt16) → Prop} {halt : Halt Call → World (List UInt16) → Prop} :
    wp (do
        let server := layout sockfd revents clients (free + 1)
        let clientSockets ← store server.clientSockets server.clientCount.toNat newSocket
        let fds ← store server.fds (server.clientCount + 1).toNat ⟨newSocket, pollin, 0⟩
        pure { server with clientSockets, fds, clientCount := server.clientCount + 1 })
      post halt world ↔
      post (layout sockfd revents (clients ++ [⟨newSocket, 0⟩]) free) world := by
  have countEq : (layout sockfd revents clients (free + 1)).clientCount = sizeT clients.length :=
    rfl
  simp only [countEq, sizeT_add_one, toNat_sizeT small,
    toNat_sizeT (show clients.length < 2 ^ 64 by omega)]
  rw [store_eq_pure _ (by simp [layout]), pure_bind, store_eq_pure _ (by simp [layout]),
    pure_bind, wp_pure]
  simp [layout, Client.entry, List.replicate_succ, Nat.add_comm 1 free, Nat.add_assoc]

theorem wp_handleNewConnection (sound : world.Sound sockfd (clients.map Client.fd))
    (few : clients.length + free ≤ 2 ^ 32) :
    wp (handleNewConnection (layout sockfd revents clients free)) (Holds sockfd)
      (Stopped sockfd) world := by
  have listener : (load (layout sockfd revents clients free).fds 0 : PollSys PollFd) =
      pure ⟨sockfd, pollin, revents⟩ := load_eq_pure rfl
  rw [handleNewConnection, listener, pure_bind]
  split
  · apply wp_seq (wp_accept sound)
    rintro (newSocket | _ | _) next sound
    · have count := sound.length_le
      rw [List.length_cons, List.length_map] at count
      have full : (layout sockfd revents clients free).clientCount =
          (layout sockfd revents clients free).clientCapacity ↔ free = 0 := by
        simp only [layout]
        rw [sizeT_inj (by omega) (by omega)]
        omega
      have appended : ((clients ++ [(⟨newSocket, 0⟩ : Client)]).map Client.fd).Perm
          (newSocket :: clients.map Client.fd) := by
        simp
      simp only [full]
      cases free with
      | zero =>
          rw [if_pos rfl]
          apply wp_seq (wp_growArrays sound (by omega))
          rintro server next ⟨free, rfl, bound, sound⟩
          apply (store_newSocket newSocket (by omega)).mpr
          refine ⟨revents, _, free, rfl, ?_, sound.reorder appended⟩
          rw [List.length_append, List.length_singleton]
          omega
      | succ free =>
          rw [if_neg (Nat.succ_ne_zero free), pure_bind]
          apply (store_newSocket newSocket (by omega)).mpr
          refine ⟨revents, _, free, rfl, ?_, sound.reorder appended⟩
          rw [List.length_append, List.length_singleton]
          omega
    · exact sound.halted_exit 1 "Accept error"
    · exact sound.halted_exit 1 "Accept error"
  · exact ⟨revents, clients, free, rfl, few, sound⟩

/-! ## The main loop -/

/-- `poll` rewrites `revents` only. -/
theorem report_entries (clients : List Client) (rest : List PollFd) (answers : List UInt16) :
    ∃ reported : List Client,
      report clients.length (clients.map Client.entry ++ rest) answers =
        reported.map Client.entry ++ rest ∧
      reported.map Client.fd = clients.map Client.fd := by
  induction clients generalizing answers with
  | nil => exact ⟨[], rfl, rfl⟩
  | cons client clients ih =>
      obtain ⟨reported, entries, descriptors⟩ := ih answers.tail
      refine ⟨⟨client.fd, if client.fd < 0 then 0 else answers.headD 0⟩ :: reported, ?_, ?_⟩
      · simp [report, entries, Client.entry]
      · simp [descriptors]

theorem report_layout (answers : List UInt16) :
    ∃ revents' reported,
      { layout sockfd revents clients free with
        fds := report (clients.length + 1) (layout sockfd revents clients free).fds answers } =
        layout sockfd revents' reported free ∧
      reported.map Client.fd = clients.map Client.fd := by
  obtain ⟨reported, entries, descriptors⟩ :=
    report_entries clients (List.replicate free .unused) answers.tail
  have count : reported.length = clients.length := by
    simpa using congrArg List.length descriptors
  refine ⟨if sockfd < 0 then 0 else answers.headD 0, reported, ?_, descriptors⟩
  simp [layout, report, entries, descriptors, count]

theorem wp_poll (sound : world.Sound sockfd (clients.map Client.fd)) :
    wp (poll (layout sockfd revents clients free).fds (clients.length + 1))
      (fun reply next =>
        next.Sound sockfd (clients.map Client.fd) ∧
        ∀ fds, reply = .returned fds → ∃ answers,
          fds = report (clients.length + 1) (layout sockfd revents clients free).fds answers)
      (Stopped sockfd) world := by
  rw [poll]
  apply wp_seq (wp_multiplex sound (by simp))
  rintro (answers | _ | _) next sound
  · simp only
    rw [if_pos (by simp [layout]), wp_pure]
    exact ⟨sound, fun _ returned => ⟨answers, (Reply.returned.inj returned).symm⟩⟩
  · exact ⟨sound, by simp⟩
  · exact ⟨sound, by simp⟩

/-- The listening socket's entry is reset at the end of a round. -/
theorem wp_resetListener {server : Server} (holds : Holds sockfd server world) :
    wp (do
        let listener ← load server.fds 0
        let fds ← store server.fds 0 { listener with revents := 0 }
        pure { server with fds })
      (Holds sockfd) (Stopped sockfd) world := by
  obtain ⟨revents, clients, free, rfl, few, sound⟩ := holds
  exact ⟨0, clients, free, rfl, few, sound⟩

theorem wp_mainBody {server : Server} (holds : Holds sockfd server world) :
    wp (mainBody server) (Holds sockfd) (Stopped sockfd) world := by
  obtain ⟨revents, clients, free, rfl, few, sound⟩ := holds
  have count : ((layout sockfd revents clients free).clientCount + 1).toNat =
      clients.length + 1 := by
    have many := sound.length_le
    rw [List.length_map] at many
    rw [show (layout sockfd revents clients free).clientCount = sizeT clients.length from rfl,
      sizeT_add_one, toNat_sizeT (by omega)]
  rw [mainBody, count]
  apply wp_seq (wp_poll sound)
  rintro (fds | _ | _) next ⟨sound, reported⟩
  · obtain ⟨answers, rfl⟩ := reported fds rfl
    obtain ⟨revents, reported, layoutEq, descriptors⟩ :=
      @report_layout sockfd revents clients free answers
    rw [← descriptors] at sound
    have lengthEq := congrArg List.length descriptors
    rw [List.length_map, List.length_map] at lengthEq
    simp only [layoutEq, wp_bind]
    apply wp_conseq (wp_handleNewConnection sound (lengthEq ▸ few))
    rintro server next ⟨revents, clients, free, rfl, few, sound⟩
    split
    · rw [wp_bind]
      refine wp_mono (wp_handleClientData sound) ?_ fun _ _ halted => halted.2
      rintro server next ⟨left, free', rfl, slots, sound, -⟩
      exact wp_resetListener ⟨revents, left, free', rfl, slots ▸ few, sound⟩
    · exact wp_resetListener ⟨revents, clients, free, rfl, few, sound⟩
  · exact sound.halted_exit 1 "Poll error"
  · exact sound.halted_exit 1 "Poll error"

/-- A round of the main loop keeps the arrays a layout of the open
connections. -/
theorem wp_mainRound {server : Server} (holds : Holds sockfd server world) :
    wp (mainRound server) (Sum.elim (Holds sockfd) (Holds sockfd)) (Stopped sockfd) world := by
  obtain ⟨revents, clients, free, rfl, few, sound⟩ := holds
  rw [mainRound]
  apply wp_seq (wp_readExitFlag sound)
  rintro (_ | _) next sound
  · rw [if_neg Bool.false_ne_true, wp_bind]
    exact wp_mainBody ⟨revents, clients, free, rfl, few, sound⟩
  · exact ⟨revents, clients, free, rfl, few, sound⟩

/-! ## The beginning -/

/-- The first loop of `initialize_pollfds`. -/
theorem fill_initial (junk : Nat → Int) :
    (forRange (fun i slots => store slots i (-1)) (UInt64.toNat 4) 0
        (resize [] (slotsOf 4 4) junk) : PollSys (List Int)) = pure (List.replicate 4 (-1)) :=
  rfl

theorem wp_initializePollfds (sound : world.Sound sockfd []) :
    wp (initializePollfds sockfd) (Holds sockfd) (Stopped sockfd) world := by
  rw [initializePollfds]
  apply wp_seq (wp_allocate sound)
  rintro (_ | _) next sound
  · exact sound.halted_exit 1 "malloc"
  · simp only [if_true]
    rw [wp_bind, wp_get, fill_initial, pure_bind, wp_bind]
    apply wp_conseq (wp_allocate sound)
    rintro (_ | _) next sound
    · exact sound.halted_exit 1 "malloc"
    · exact ⟨0, [], 4, rfl, by decide, sound⟩

/-- `main` gets to its loop with no client, or exits. -/
theorem wp_start (environment : Environment (List UInt16)) :
    wp start (fun result => Holds result.1 result.2)
      (fun reason next => ∃ sockfd, Stopped sockfd reason next) environment.boot := by
  rw [start]
  apply wp_seq (World.Idle.boot environment).wp_unlink
  rintro - next ⟨idle, -⟩
  apply wp_seq idle.wp_socket
  rintro sockfd next ⟨idle, listening⟩
  split
  · exact ⟨0, idle.halted_exit 0 1 "socket"⟩
  · rename_i opened
    apply wp_seq idle.wp_bind
    rintro (_ | _) next ⟨idle, sameListening⟩
    · exact ⟨0, idle.halted_exit 0 1 "bind"⟩
    · rw [if_neg (by decide)]
      apply wp_seq idle.wp_listen
      rintro (_ | _) next' ⟨idle, sameListening'⟩
      · exact ⟨0, idle.halted_exit 0 1 "Listen error"⟩
      · rw [if_neg (by decide), wp_bind]
        have sound := idle.sound (sameListening'.trans (sameListening.trans (listening opened)))
        exact wp_mono (wp_initializePollfds sound) (fun _ _ holds => holds)
          fun _ _ halted => ⟨sockfd, halted⟩

/-! ## Every head of the loop -/

theorem AtLoopHead.holds {environment : Environment (List UInt16)} {server : Server}
    (head : AtLoopHead environment sockfd server world) : Holds sockfd server world := by
  induction head with
  | entry run =>
      have started := wp_start environment
      rwa [wp_of_ok run] at started
  | again _ run ih =>
      have round := wp_mainRound ih
      rwa [wp_of_ok run] at round

/-- What the parallel arrays have to be, index by index. -/
structure WellFormed (sockfd : Int) (server : Server) (world : World (List UInt16)) :
    Prop where
  countLe : server.clientCount ≤ server.clientCapacity
  sockets : server.clientSockets.length = server.clientCapacity.toNat
  fds : server.fds.length = server.clientCapacity.toNat + 1
  listening : world.listening = some sockfd
  listener : ∃ revents, server.fds[0]? = some ⟨sockfd, pollin, revents⟩
  client : ∀ i < server.clientCount.toNat, ∃ fd revents,
    server.clientSockets[i]? = some fd ∧ server.fds[i + 1]? = some ⟨fd, pollin, revents⟩
  distinct : (server.clientSockets.take server.clientCount.toNat).Nodup
  opened : ∀ fd,
    fd ∈ server.clientSockets.take server.clientCount.toNat ↔ fd ∈ openDescriptors world.trace
  unused : ∀ i, server.clientCount.toNat ≤ i → i < server.clientCapacity.toNat →
    server.clientSockets[i]? = some (-1) ∧ server.fds[i + 1]? = some ⟨-1, 0, 0⟩

theorem Holds.wellFormed {server : Server} (holds : Holds sockfd server world) :
    WellFormed sockfd server world := by
  obtain ⟨revents, clients, free, rfl, few, sound⟩ := holds
  have count : (layout sockfd revents clients free).clientCount.toNat = clients.length :=
    toNat_sizeT (by omega)
  have capacity : (layout sockfd revents clients free).clientCapacity.toNat =
      clients.length + free := toNat_sizeT (by omega)
  have used : (layout sockfd revents clients free).clientSockets.take clients.length =
      clients.map Client.fd := by
    simp [layout]
  refine ⟨?_, ?_, ?_, sound.listening, ⟨revents, rfl⟩, ?_, ?_, ?_, ?_⟩
  · rw [UInt64.le_iff_toNat_le, count, capacity]
    omega
  · rw [capacity]
    simp [layout]
  · rw [capacity]
    simp [layout]
  · intro i inside
    rw [count] at inside
    obtain ⟨before, client, after, rfl, rfl⟩ := exists_split_at inside
    exact ⟨client.fd, client.revents, by simp [layout], by simp [layout, Client.entry]⟩
  · rw [count, used]
    exact sound.nodup
  · intro fd
    rw [count, used]
    exact sound.mem_opened.symm
  · intro i atLeast inside
    rw [count] at atLeast
    rw [capacity] at inside
    constructor
    · simp only [layout]
      rw [List.getElem?_append_right (by simpa using atLeast), List.getElem?_replicate,
        if_pos (by rw [List.length_map]; omega)]
    · simp only [layout, List.getElem?_cons_succ]
      rw [List.getElem?_append_right (by simpa using atLeast), List.getElem?_replicate,
        if_pos (by rw [List.length_map]; omega)]
      rfl

/-- At every head of the loop, in every run, the parallel arrays hold exactly
the open connections; the next round closes no descriptor twice and uses no
index outside an array. -/
theorem atLoopHead_wellFormed {environment : Environment (List UInt16)} {server : Server}
    (head : AtLoopHead environment sockfd server world) :
    WellFormed sockfd server world ∧
      ClosedOnce (finalState (mainRound server world)).trace ∧
      ∀ next, mainRound server world ≠ .error .fault next := by
  have round := wp_mainRound head.holds
  refine ⟨head.holds.wellFormed, ?_, ?_⟩
  · refine finalState_of_wp (wp_mono round ?_ fun _ _ halted => halted.orderly.closedOnce)
    rintro (server | server) next ⟨_, _, _, _, _, sound⟩
    · exact sound.orderly.closedOnce
    · exact sound.orderly.closedOnce
  · intro next faults
    rw [wp_of_error faults] at round
    exact round.notFault rfl

/-- One client connects. -/
def greeted : Environment (List UInt16) :=
  { (quiet : Environment (List UInt16)) with
    ready := [.returned [1]]
    incoming := [.returned (5, [.endOfStream])] }

theorem greeted_wellFormed :
    ∃ server world, AtLoopHead greeted 3 server world ∧ world.opened = [5] ∧
      WellFormed 3 server world ∧
      ClosedOnce (finalState (mainRound server world)).trace ∧
      ∀ next, mainRound server world ≠ .error .fault next := by
  have head : AtLoopHead greeted 3 _ _ := .again (.entry rfl) rfl
  exact ⟨_, _, head, rfl, atLoopHead_wellFormed head⟩

end CExamples.IoMultiplexing.Poll
