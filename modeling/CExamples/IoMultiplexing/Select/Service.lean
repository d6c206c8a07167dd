import CExamples.IoMultiplexing.Pass
import CExamples.IoMultiplexing.Select.Core
import CExamples.Sequence.Pass

/-!
# The Client IO loop of the select server

The client array is a list of descriptors followed by spare slots.  The loop is
a pass whose index stays after a removal, since the decrement cancels the
increment of the loop even where it wraps.  So every client is visited, and
every ready one is served once.
-/

namespace CExamples.IoMultiplexing.Select

open CExamples.Program
open CExamples.Sequence

/-- The array that holds the clients `fds` before some spare slots. -/
def layout (fds spare : List Int) : Server where
  clientSockets := fds ++ spare
  clientCount := sizeT fds.length
  clientCapacity := sizeT (fds.length + spare.length)

/-- The last client's slot becomes spare. -/
def spareAfter (fd : Int) (after spare : List Int) : List Int :=
  (fd :: after).getLast (List.cons_ne_nil fd after) :: spare

@[simp]
theorem length_spareAfter (fd : Int) (after spare : List Int) :
    (spareAfter fd after spare).length = spare.length + 1 :=
  rfl

variable {sockfd fd : Int} {before after spare fds readfds : List Int}
  {world : World (List Int)}

theorem load_clientSockets :
    (load (layout (before ++ fd :: after) spare).clientSockets before.length : SelectSys Int) =
      pure fd := by
  apply load_eq_pure
  simp [layout]

/-- Removing a client moves the last one into its place. -/
theorem removeClient_layout (small : before.length + after.length + 1 < 2 ^ 64) :
    removeClient (layout (before ++ fd :: after) spare) (sizeT before.length) =
      pure (layout (before ++ closeGap after) (spareAfter fd after spare)) := by
  have countEq : (layout (before ++ fd :: after) spare).clientCount - 1 =
      sizeT (before.length + after.length) := by
    rw [← sizeT_succ_sub_one]
    simp [layout, Nat.add_assoc]
  simp only [removeClient, countEq, toNat_sizeT (show before.length < 2 ^ 64 by omega),
    toNat_sizeT (show before.length + after.length < 2 ^ 64 by omega)]
  rcases List.eq_nil_or_concat after with rfl | ⟨between, last, rfl⟩
  · rw [if_neg (by simp)]
    simp [layout, spareAfter, Nat.add_assoc, Nat.add_comm 1]
  · have moves : sizeT before.length ≠ sizeT (before.length + (between.concat last).length) := by
      rw [ne_eq, sizeT_inj (by omega) (by omega), List.length_concat]
      omega
    have loaded : (load (layout (before ++ fd :: between.concat last) spare).clientSockets
        (before.length + (between.concat last).length) : SelectSys Int) = pure last := by
      apply load_eq_pure
      simp [layout]
    rw [if_pos moves, loaded, pure_bind, store_eq_pure _ (by simp [layout]), pure_bind]
    have capacityEq : before.length + (between.length + 1 + 1) + spare.length =
        before.length + (between.length + 1) + (spare.length + 1) := by omega
    simp [layout, spareAfter, capacityEq]

/-- Whether the visit of a client removes it. -/
def fails (readfds : FdSet) (world : World (List Int)) (fd : Int) : Bool :=
  fdIssetSafe fd readfds && world.drops fd

/-- The visited clients that stay, after the visit of `fd`. -/
def kept (readfds : FdSet) (world : World (List Int)) (before : List Int) (fd : Int) :
    List Int :=
  if fails readfds world fd then before else before ++ [fd]

/-- The clients still to be visited, after the visit of `fd`. -/
def remaining (readfds : FdSet) (world : World (List Int)) (fd : Int) (after : List Int) :
    List Int :=
  if fails readfds world fd then closeGap after else after

/-- The spare slots after the visit of `fd`. -/
def spared (readfds : FdSet) (world : World (List Int)) (fd : Int) (after spare : List Int) :
    List Int :=
  if fails readfds world fd then spareAfter fd after spare else spare

@[simp]
theorem length_remaining : (remaining readfds world fd after).length = after.length := by
  unfold remaining
  split <;> simp

/-- A visit neither makes nor loses slots. -/
theorem length_kept : (kept readfds world before fd).length +
    (spared readfds world fd after spare).length = before.length + 1 + spare.length := by
  unfold kept spared
  split
  · rw [length_spareAfter]
    omega
  · rw [List.length_append, List.length_singleton]

theorem kept_subset : kept readfds world before fd ⊆ before ++ [fd] := by
  unfold kept
  split
  · exact List.subset_append_left before [fd]
  · exact List.Subset.refl _

theorem remaining_subset : remaining readfds world fd after ⊆ after := by
  unfold remaining
  split
  · exact (closeGap_perm after).subset
  · exact List.Subset.refl _

/-- One visit: the index is that of the first client not visited yet, also after
a removal. -/
theorem wp_clientIoRound (sound : world.Sound sockfd (before ++ fd :: after)) :
    wp (clientIoRound readfds (sizeT before.length, layout (before ++ fd :: after) spare))
      (fun result next =>
        result = .inl (sizeT (kept readfds world before fd).length,
          layout (kept readfds world before fd ++ remaining readfds world fd after)
            (spared readfds world fd after spare)) ∧
        next.Sound sockfd (kept readfds world before fd ++ remaining readfds world fd after) ∧
        attempts next.trace =
          readyFds id (fdIssetSafe · readfds) [fd] ++ attempts world.trace ∧
        ∀ other, other ≠ fd → next.connection other = world.connection other)
      (fun reason next => Stopped sockfd reason next ∧ fdIssetSafe fd readfds ∧ world.waits fd)
      world := by
  have lengthEq : (before ++ fd :: after).length = before.length + after.length + 1 := by
    simp [Nat.add_assoc]
  have few := sound.length_le
  rw [lengthEq] at few
  have inside : sizeT before.length < (layout (before ++ fd :: after) spare).clientCount :=
    (sizeT_lt_sizeT (by omega) (by omega)).mpr (by omega)
  have stays (stayed : fails readfds world fd = false) :
      (sizeT before.length + 1, layout (before ++ fd :: after) spare) =
        (sizeT (kept readfds world before fd).length,
          layout (kept readfds world before fd ++ remaining readfds world fd after)
            (spared readfds world fd after spare)) := by
    simp [kept, remaining, spared, stayed, sizeT_add_one]
  simp only [clientIoRound, if_pos inside, toNat_sizeT (show before.length < 2 ^ 64 by omega)]
  rw [load_clientSockets, pure_bind]
  by_cases ready : fdIssetSafe fd readfds = true
  · have inRange : fdInSelectRange fd = true := (Bool.and_eq_true_iff.mp ready).1
    have first : world.Sound sockfd (fd :: (before ++ after)) :=
      sound.reorder List.perm_middle.symm
    rw [inRange, if_neg (by decide), if_pos ready, wp_bind]
    refine wp_mono (wp_readWord_sound first) ?_ ?_
    · rintro stays' next ⟨staysEq, ⟨attempted, others⟩, outcome⟩
      cases stays' with
      | true =>
          have stayed : fails readfds world fd = false := by
            simpa [fails] using fun _ => staysEq
          rw [if_pos rfl, stays stayed, wp_pure]
          refine ⟨rfl, ?_, by simpa [readyFds, ready] using attempted, others⟩
          simp only [kept, remaining, stayed]
          exact outcome.reorder (by simp)
      | false =>
          have failed : fails readfds world fd = true := by simpa [fails, ready] using staysEq
          obtain ⟨isOpen, notListening, closed⟩ := outcome
          rw [if_neg Bool.false_ne_true, wp_bind, wp_close isOpen notListening,
            removeClient_layout (by omega), pure_bind, sub_one_add_one, wp_pure]
          simp only [kept, remaining, spared, failed]
          refine ⟨rfl, closed.reorder ?_, by simpa [readyFds, ready] using attempted, others⟩
          exact (closeGap_perm after).append_left before
    · rintro reason next ⟨halted, waits⟩
      exact ⟨halted, ready, waits⟩
  · have stayed : fails readfds world fd = false := by simp [fails, ready]
    rw [if_neg ready, ite_self, stays stayed, wp_pure]
    refine ⟨rfl, ?_, by simp [readyFds, ready], fun _ _ => rfl⟩
    simpa [kept, remaining, stayed] using sound

/-! ## The whole pass -/

/-- The loop's local variables and the world after some rounds of a pass. -/
def PassState (sockfd : Int) (readfds : FdSet) (fds spare : List Int) (world : World (List Int))
    (locals : UInt64 × Server) (next : World (List Int)) : Prop :=
  ∃ before rest spare',
    locals = (sizeT before.length, layout (before ++ rest) spare') ∧
    (before ++ rest).length + spare'.length = fds.length + spare.length ∧
    before ⊆ fds ∧
    next.Sound sockfd (before ++ rest) ∧
    Passing id (fdIssetSafe · readfds) (steadyPass (fails readfds world)) fds world rest next

/-- What a whole pass leaves. -/
def PassEnd (sockfd : Int) (readfds : FdSet) (fds spare : List Int) (world : World (List Int))
    (server : Server) (next : World (List Int)) : Prop :=
  ∃ left spare',
    server = layout left spare' ∧
    left.length + spare'.length = fds.length + spare.length ∧
    left ⊆ fds ∧
    next.Sound sockfd left ∧
    attempts next.trace =
      (readyFds id (fdIssetSafe · readfds) (steadyPass (fails readfds world) fds)).reverse ++
        attempts world.trace

/-- A pass halts only while it waits for a frame of a ready client. -/
def PassHalt (sockfd : Int) (readfds : FdSet) (fds : List Int) (world : World (List Int))
    (reason : Halt Call) (next : World (List Int)) : Prop :=
  Halted sockfd reason next ∧ ∃ fd ∈ fds, fdIssetSafe fd readfds ∧ world.waits fd

/-- The descriptors after a client's are not its own. -/
theorem distinct_after (nodup : (before ++ fd :: after).Nodup) : ∀ other ∈ after, other ≠ fd := by
  intro other member equal
  rw [List.nodup_append] at nodup
  exact (List.nodup_cons.mp nodup.2.1).1 (equal ▸ member)

theorem round_clientIo :
    Round (clientIoRound readfds) (PassState sockfd readfds fds spare world)
      (fun locals _ => locals.2.clientCount.toNat - locals.1.toNat)
      (PassEnd sockfd readfds fds spare world)
      (fun reason next =>
        PassHalt sockfd readfds fds world reason next ∧ Stopped sockfd reason next) := by
  rintro locals next ⟨before, rest, spare', rfl, slots, subset, sound, passing⟩
  have few := sound.length_le
  have countEq (fds spare : List Int) (few : fds.length < 2 ^ 64) :
      (layout fds spare).clientCount.toNat = fds.length := toNat_sizeT few
  cases rest with
  | nil =>
      have outside : ¬sizeT before.length < (layout (before ++ []) spare').clientCount := by
        simp [layout]
      rw [clientIoRound, if_neg outside, wp_pure]
      rw [List.append_nil] at slots sound ⊢
      exact ⟨before, spare', rfl, slots, subset, sound, passing.final (steadyPass_nil _)⟩
  | cons fd after =>
      have unread : next.connection fd = world.connection fd :=
        passing.unread fd List.mem_cons_self
      have failsEq : fails readfds next fd = fails readfds world fd := by
        simp only [fails, World.drops, unread]
      have member := passing.member fd List.mem_cons_self
      refine wp_mono (wp_clientIoRound sound) ?_ ?_
      · rintro result next' ⟨rfl, sound', attempted, others⟩
        have lengths := @length_kept fd before after spare' readfds next
        have shorter := @length_remaining fd after readfds next
        simp only [List.length_append, List.length_cons] at slots few
        refine ⟨⟨_, _, _, rfl, ?_, ?_, sound', ?_⟩, ?_⟩
        · rw [List.length_append]
          omega
        · exact List.Subset.trans kept_subset
            (List.append_subset.mpr ⟨subset, List.cons_subset.mpr ⟨member, List.nil_subset _⟩⟩)
        · refine passing.advance ?_ ?_ (distinct_after sound.nodup) attempted others
          · rw [steadyPass, remaining, failsEq]
          · exact fun other member => remaining_subset member
        · simp only
          have fewer := sound'.length_le
          rw [List.length_append] at fewer
          rw [countEq _ _ (by rw [List.length_append]; omega),
            countEq _ _ (by rw [List.length_append, List.length_cons]; omega),
            toNat_sizeT (by omega), toNat_sizeT (by omega), List.length_append,
            List.length_append, List.length_cons]
          omega
      · rintro reason next' ⟨stopped, ready, waits⟩
        rw [World.waits, unread] at waits
        exact ⟨⟨stopped.toHalted, fd, member, ready, waits⟩, stopped⟩

/-- The Client IO loop is a steady pass over the clients. -/
theorem wp_clientIo (sound : world.Sound sockfd fds) :
    wp (clientIo readfds (layout fds spare))
      (PassEnd sockfd readfds fds spare world)
      (fun reason next =>
        PassHalt sockfd readfds fds world reason next ∧ Stopped sockfd reason next)
      world := by
  refine wp_loop round_clientIo
    ⟨[], fds, spare, rfl, rfl, List.nil_subset _, sound, Passing.initial⟩ ?_
  exact Nat.lt_succ_of_le (Nat.sub_le _ _)

/-- Whatever the reads yield, the loop ends after it requested one frame of each
stored client whose bit is set, and none of any other. -/
theorem clientIo_servesExactly (sound : world.Sound sockfd fds)
    (prompt : ∀ fd ∈ fds, fdIssetSafe fd readfds → ¬world.waits fd) :
    ∃ server next,
      clientIo readfds (layout fds spare) world = .ok server next ∧
        world.ServesExactly (fds.filter (fdIssetSafe · readfds)) next := by
  have run := @wp_clientIo sockfd spare fds readfds world sound
  unfold wp at run
  cases result : clientIo readfds (layout fds spare) world with
  | error reason next =>
      rw [result] at run
      obtain ⟨⟨-, fd, member, ready, waits⟩, -⟩ := run
      exact absurd waits (prompt fd member ready)
  | ok server next =>
      rw [result] at run
      obtain ⟨-, -, -, -, -, -, attempted⟩ := run
      refine ⟨server, next, rfl, ?_⟩
      apply (World.servesExactly_iff_perm (sound.nodup.filter _) attempted).mpr
      simpa [readyFds] using (steadyPass_perm (fails readfds world) fds).filter _

/-- The client at index 0 is removed, and the one that takes its place is served
too. -/
theorem clientIo_serves_moved :
    ∃ server next,
      clientIo [6, 5] (layout [5, 6] [0, 0]) crowded = .ok server next ∧
        (crowded : World (List Int)).ServesExactly [5, 6] next :=
  clientIo_servesExactly crowded_sound fun fd member _ => crowded_prompt fd member

end CExamples.IoMultiplexing.Select
