import CExamples.IoMultiplexing.Pass
import CExamples.IoMultiplexing.Poll.Layout
import CExamples.Sequence.Pass

/-!
# The client loop of the poll server

`handle_client_data` is a pass over the clients whose index advances after a
removal.  One round visits one client, and the whole loop visits the clients of
a skipping pass.  Hence the client that a removal moves into the vacated place
is not visited, and a client is served in its pass only if enough clients are
left when the index gets to it.
-/

namespace CExamples.IoMultiplexing.Poll

open CExamples.Program
open CExamples.Sequence

/-- The answers of `poll` that a client's visit has dealt with are cleared. -/
def Client.seen (client : Client) : Client :=
  if client.Ready then { client with revents := 0 } else client

/-- Whether the visit of a client removes it. -/
def fails (world : World (List UInt16)) (client : Client) : Bool :=
  decide client.Ready && world.drops client.fd

/-- The clients from the visited one on, after its visit. -/
def visit (world : World (List UInt16)) (client : Client) (after : List Client) : List Client :=
  if fails world client then closeGap after else client.seen :: after

/-- The slots that a visit makes free. -/
def freed (world : World (List UInt16)) (client : Client) : Nat :=
  if fails world client then 1 else 0

section Visit

variable {world : World (List UInt16)} {client : Client} {after : List Client}

theorem tail_visit :
    (visit world client after).tail = if fails world client then after.dropLast else after := by
  unfold visit
  split
  · exact tail_closeGap after
  · rfl

theorem length_visit :
    (visit world client after).length + freed world client = after.length + 1 := by
  unfold visit freed
  split <;> simp

end Visit

section Round

variable {sockfd : Int} {revents : UInt16} {world : World (List UInt16)}
  {before after : List Client} {client : Client} {free : Nat}

theorem wp_clientDataRound
    (sound : world.Sound sockfd ((before ++ client :: after).map Client.fd)) :
    wp (clientDataRound
        (sizeT before.length, layout sockfd revents (before ++ client :: after) free))
      (fun result next =>
        result = .inl (sizeT (before.length + 1),
          layout sockfd revents (before ++ visit world client after)
            (free + freed world client)) ∧
        next.Sound sockfd ((before ++ visit world client after).map Client.fd) ∧
        attempts next.trace =
          ([client].filter (fun client => client.Ready)).map Client.fd ++ attempts world.trace ∧
        ∀ other, other ≠ client.fd → next.connection other = world.connection other)
      (fun reason next => Stopped sockfd reason next ∧ client.Ready ∧ world.waits client.fd)
      world := by
  have lengthEq : (before ++ client :: after).length = before.length + after.length + 1 := by
    simp [Nat.add_assoc]
  have few := sound.length_le
  rw [List.length_map, lengthEq] at few
  have apart : client.fd ≠ -1 := by
    have range := sound.range client.fd (by simp)
    omega
  have inside : sizeT before.length <
      (layout sockfd revents (before ++ client :: after) free).clientCount :=
    (sizeT_lt_sizeT (by omega) (by omega)).mpr (by omega)
  simp only [clientDataRound, if_pos inside, sizeT_add_one,
    toNat_sizeT (show before.length < 2 ^ 64 by omega),
    toNat_sizeT (show before.length + 1 < 2 ^ 64 by omega)]
  rw [load_clientSockets, pure_bind, if_pos apart, load_fds, pure_bind]
  by_cases ready : client.Ready
  · have readable : client.entry.Readable := ready
    have seenEq : client.seen = ⟨client.fd, 0⟩ := if_pos ready
    have first : world.Sound sockfd (client.fd :: (before ++ after).map Client.fd) :=
      sound.reorder (by simpa using List.perm_middle.symm)
    rw [if_pos readable, wp_bind]
    refine wp_mono (wp_readWord_sound first) ?_ ?_
    · rintro stays next ⟨staysEq, ⟨attempted, others⟩, outcome⟩
      cases stays with
      | true =>
          have stayed : fails world client = false := by
            simpa [fails] using fun _ => staysEq
          rw [if_pos rfl, pure_bind, store_fds, pure_bind, wp_pure, layout_seen]
          simp only [visit, freed, stayed, seenEq]
          refine ⟨rfl, outcome.reorder ?_, by simpa [ready] using attempted, others⟩
          simp
      | false =>
          have failed : fails world client = true := by simpa [fails, ready] using staysEq
          obtain ⟨isOpen, notListening, closed⟩ := outcome
          rw [if_neg Bool.false_ne_true, wp_bind,
            wp_handleClientDisconnection (by omega) isOpen notListening, wp_pure]
          simp only [visit, freed, failed]
          refine ⟨rfl, closed.reorder ?_, by simpa [ready] using attempted, others⟩
          exact ((closeGap_perm after).append_left before).map Client.fd
    · rintro reason next ⟨halted, waits⟩
      exact ⟨halted, ready, waits⟩
  · have unreadable : ¬client.entry.Readable := ready
    have seenEq : client.seen = client := if_neg ready
    have stayed : fails world client = false := by simp [fails, ready]
    rw [if_neg unreadable, wp_pure]
    simp only [visit, freed, stayed, seenEq]
    exact ⟨rfl, sound, by simp [ready], fun _ _ => trivial⟩

end Round

/-! ## The whole pass -/

/-- The descriptors of the clients that `poll` reported ready. -/
def readyFds (clients : List Client) : List Int :=
  IoMultiplexing.readyFds Client.fd (fun client => client.Ready) clients

/-- The loop's local variables and the world after some rounds of a pass. -/
def PassState (sockfd : Int) (revents : UInt16) (clients : List Client) (free : Nat)
    (world : World (List UInt16)) (locals : UInt64 × Server) (next : World (List UInt16)) :
    Prop :=
  ∃ index left free',
    locals = (sizeT index, layout sockfd revents left free') ∧
    left.length + free' = clients.length + free ∧
    index ≤ left.length + 1 ∧
    next.Sound sockfd (left.map Client.fd) ∧
    Passing Client.fd (fun client => client.Ready) (skippingPass (fails world)) clients world
      (left.drop index) next

/-- What a whole pass leaves. -/
def PassEnd (sockfd : Int) (revents : UInt16) (clients : List Client) (free : Nat)
    (world : World (List UInt16)) (server : Server) (next : World (List UInt16)) : Prop :=
  ∃ left free',
    server = layout sockfd revents left free' ∧
    left.length + free' = clients.length + free ∧
    next.Sound sockfd (left.map Client.fd) ∧
    attempts next.trace =
      (readyFds (skippingPass (fails world) clients)).reverse ++ attempts world.trace

/-- A pass halts only while it waits for a frame of a ready client. -/
def PassHalt (sockfd : Int) (clients : List Client) (world : World (List UInt16))
    (reason : Halt Call) (next : World (List UInt16)) : Prop :=
  Halted sockfd reason next ∧ ∃ client ∈ clients, client.Ready ∧ world.waits client.fd

section Loop

variable {sockfd : Int} {revents : UInt16} {world : World (List UInt16)}
  {clients : List Client} {free : Nat}

/-- After a visit the pass goes on with the clients after the visited one, the
last of them excepted if it moved. -/
theorem drop_visit {next : World (List UInt16)} {before after : List Client} {client : Client} :
    (before ++ visit next client after).drop (before.length + 1) =
      if fails next client then after.dropLast else after := by
  rw [← tail_visit, List.drop_append, List.drop_of_length_le (by omega), List.nil_append,
    Nat.add_sub_cancel_left, List.drop_one]

/-- The descriptors after a client's are not its own. -/
theorem distinct_after {before after : List Client} {client : Client}
    (nodup : ((before ++ client :: after).map Client.fd).Nodup) :
    ∀ other ∈ after, other.fd ≠ client.fd := by
  intro other member equal
  rw [List.map_append, List.map_cons, List.nodup_append] at nodup
  exact (List.nodup_cons.mp nodup.2.1).1 (equal ▸ List.mem_map_of_mem member)

theorem round_clientData :
    Round clientDataRound (PassState sockfd revents clients free world)
      (fun locals _ => locals.2.clientCount.toNat - locals.1.toNat)
      (PassEnd sockfd revents clients free world)
      (fun reason next =>
        PassHalt sockfd clients world reason next ∧ Stopped sockfd reason next) := by
  rintro locals next ⟨index, left, free', rfl, slots, inside, sound, passing⟩
  have few := sound.length_le
  rw [List.length_map] at few
  have countEq (clients : List Client) (free : Nat) (few : clients.length < 2 ^ 64) :
      (layout sockfd revents clients free).clientCount.toNat = clients.length :=
    toNat_sizeT few
  rcases Nat.lt_or_ge index left.length with more | done
  · obtain ⟨before, client, after, rfl, rfl⟩ := exists_split_at more
    rw [List.drop_left] at passing
    have unread := passing.unread client List.mem_cons_self
    have failsEq : fails next client = fails world client := by
      simp only [fails, World.drops, unread]
    refine wp_mono (wp_clientDataRound sound) ?_ ?_
    · rintro result next' ⟨rfl, sound', attempted, others⟩
      have visitLength := @length_visit next client after
      simp only [List.length_append, List.length_cons] at slots more inside few
      refine ⟨⟨_, _, _, rfl, ?_, ?_, sound', ?_⟩, ?_⟩
      · rw [List.length_append]
        omega
      · have freedLe : freed next client ≤ 1 := by
          unfold freed
          split <;> omega
        rw [List.length_append]
        omega
      · refine passing.advance ?_ ?_ (distinct_after sound.nodup) attempted others
        · rw [drop_visit, failsEq, skippingPass]
        · intro other member
          rw [drop_visit] at member
          split at member
          · exact List.mem_of_mem_dropLast member
          · exact member
      · simp only
        rw [countEq _ _ (by rw [List.length_append]; omega),
          countEq _ _ (by rw [List.length_append, List.length_cons]; omega),
          toNat_sizeT (by omega), toNat_sizeT (by omega), List.length_append, List.length_append,
          List.length_cons]
        omega
    · rintro reason next' ⟨stopped, ready, waits⟩
      rw [World.waits, unread] at waits
      exact ⟨⟨stopped.toHalted, client, passing.member client List.mem_cons_self, ready, waits⟩,
        stopped⟩
  · have outside : ¬sizeT index < (layout sockfd revents left free').clientCount := by
      rw [show (layout sockfd revents left free').clientCount = sizeT left.length from rfl,
        sizeT_lt_sizeT (by omega) (by omega)]
      omega
    rw [List.drop_of_length_le done] at passing
    rw [clientDataRound, if_neg outside, wp_pure]
    exact ⟨left, free', rfl, slots, sound, passing.final (skippingPass_nil _)⟩

/-- One call of `handle_client_data` is a skipping pass over the clients. -/
theorem wp_handleClientData (sound : world.Sound sockfd (clients.map Client.fd)) :
    wp (handleClientData (layout sockfd revents clients free))
      (PassEnd sockfd revents clients free world)
      (fun reason next => PassHalt sockfd clients world reason next ∧ Stopped sockfd reason next)
      world := by
  refine wp_loop round_clientData
    ⟨0, clients, free, rfl, rfl, Nat.zero_le _, sound, Passing.initial⟩ ?_
  exact Nat.lt_succ_of_le (Nat.sub_le _ _)

/-- The clients whose removal lets a pass end early: reported ready, without a
complete frame. -/
def Hopeless (world : World (List UInt16)) (client : Client) : Prop :=
  client.Ready ∧ ¬world.HasFrame client.fd

instance (world : World (List UInt16)) (client : Client) : Decidable (Hopeless world client) :=
  inferInstanceAs (Decidable (_ ∧ _))

theorem fails_eq_hopeless {client : Client} (prompt : client.Ready → ¬world.waits client.fd) :
    fails world client = decide (Hopeless world client) := by
  by_cases ready : client.Ready
  · rw [Bool.eq_iff_iff]
    simpa [fails, Hopeless, ready] using World.drops_iff_not_hasFrame (prompt ready)
  · simp [fails, Hopeless, ready]

/-- A front of the clients has all ready ones among its own. -/
theorem readyFds_perm_iff {visited : List Client} (front : visited <+: clients) :
    (readyFds visited).Perm (readyFds clients) ↔
      visited.filter (fun client => client.Ready) =
        clients.filter fun client => client.Ready := by
  constructor
  · intro perm
    apply (front.sublist.filter _).eq_of_length
    simpa [readyFds, IoMultiplexing.readyFds] using perm.length_eq
  · intro same
    simp only [readyFds, IoMultiplexing.readyFds, same, List.Perm.refl]

/-- A pass requests one frame of every ready client, and of no other, exactly
when each ready client's index, with the removals before it, is less than the
number of clients. -/
theorem handleClientData_servesExactly_iff
    (sound : world.Sound sockfd (clients.map Client.fd))
    (prompt : ∀ client ∈ clients, client.Ready → ¬world.waits client.fd) :
    (∃ server next,
        handleClientData (layout sockfd revents clients free) world = .ok server next ∧
          world.ServesExactly (readyFds clients) next) ↔
      ∀ before client after, clients = before ++ client :: after → client.Ready →
        before.length + before.countP (fun earlier => Hopeless world earlier) <
          clients.length := by
  have run := @wp_handleClientData sockfd revents world clients free sound
  have counts : ∀ before client after, clients = before ++ client :: after →
      before.countP (fails world) =
        before.countP (fun earlier => decide (Hopeless world earlier)) := by
    intro before client after split
    refine List.countP_congr fun earlier member => ?_
    rw [fails_eq_hopeless (prompt earlier (split ▸ List.mem_append_left _ member))]
  unfold wp at run
  cases result : handleClientData (layout sockfd revents clients free) world with
  | error reason next =>
      rw [result] at run
      obtain ⟨⟨-, client, member, ready, waits⟩, -⟩ := run
      exact absurd waits (prompt client member ready)
  | ok server next =>
      rw [result] at run
      obtain ⟨-, -, -, -, -, attempted⟩ := run
      have nodup : (readyFds clients).Nodup := readyFds_nodup _ _ sound.nodup
      have served := World.servesExactly_iff_perm nodup attempted
      rw [readyFds_perm_iff (skippingPass_isPrefix _ _), filter_skippingPass_eq_iff] at served
      constructor
      · rintro ⟨server', next', runEq, exactly⟩ before client after split ready
        cases runEq
        rw [← counts before client after split]
        exact served.mp exactly before client after split (decide_eq_true ready)
      · intro room
        refine ⟨server, next, rfl, served.mpr ?_⟩
        intro before client after split ready
        rw [counts before client after split]
        exact room before client after split (of_decide_eq_true ready)

end Loop

/-- Both clients are ready, and the one that takes the place of the other is
not served. -/
theorem handleClientData_misses_moved :
    ¬∀ (sockfd : Int) (revents : UInt16) (clients : List Client) (free : Nat)
      (world : World (List UInt16)), world.Sound sockfd (clients.map Client.fd) →
      (∀ client ∈ clients, client.Ready → ¬world.waits client.fd) →
      ∃ server next,
        handleClientData (layout sockfd revents clients free) world = .ok server next ∧
          world.ServesExactly (readyFds clients) next := by
  intro claim
  obtain ⟨server, next, run, exactly⟩ :=
    claim 3 0 [⟨5, 1⟩, ⟨6, 1⟩] 2 crowded crowded_sound fun client member _ =>
      crowded_prompt client.fd (List.mem_map_of_mem member)
  have requested : attempts next.trace = [5] := by
    have final := congrArg (fun result => attempts (finalState result).trace) run
    exact final.symm
  have missed := exactly 6
  rw [requested] at missed
  exact absurd missed (by decide)

/-- With the places of the two clients exchanged, the removal comes last and both
are served. -/
theorem handleClientData_serves_before_removal :
    ∃ server next,
      handleClientData (layout 3 0 [⟨6, 1⟩, ⟨5, 1⟩] 2) crowded = .ok server next ∧
        crowded.ServesExactly (readyFds [⟨6, 1⟩, ⟨5, 1⟩]) next := by
  have sound : (crowded : World (List UInt16)).Sound 3 [6, 5] :=
    crowded_sound.reorder (List.Perm.swap 5 6 [])
  have hopeful : ¬Hopeless crowded ⟨6, 1⟩ := by
    rintro ⟨ready, noFrame⟩
    have drops := (World.drops_iff_not_hasFrame (crowded_prompt 6 (by simp))).mpr noFrame
    exact absurd drops (by decide)
  refine (handleClientData_servesExactly_iff sound ?_).mpr ?_
  · intro client member _
    exact crowded_prompt client.fd (by simpa [or_comm] using List.mem_map_of_mem member)
  · intro before client after split _
    rcases before with _ | ⟨first, before⟩
    · exact Nat.zero_lt_two
    · rw [List.cons_append, List.cons.injEq] at split
      obtain ⟨rfl, rest⟩ := split
      have last : before = [] := by
        have lengths := congrArg List.length rest
        simp only [List.length_append, List.length_cons, List.length_nil] at lengths
        exact List.length_eq_zero_iff.mp (by omega)
      simp [last, hopeful]

end CExamples.IoMultiplexing.Poll
