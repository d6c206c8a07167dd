import CExamples.IoMultiplexing.Client
import CExamples.IoMultiplexing.Poll.Run
import CExamples.IoMultiplexing.Select.Run

/-!
# The servers print the clients' words

Whatever the kernel does, each connection's printed words are the words of the
complete frames at the beginning of its stream.  Since the client's encoding is
inverted by that decoding, both servers print the words of every client, in
order, and up to the point where its stream was cut.
-/

namespace CExamples.IoMultiplexing

open CExamples.Program
open CExamples.Word

variable {ρ : Type} {world : World ρ} {sockfd : Int} {fds : List Int}

/-! ## The end of `main` -/

/-- The clients from index `i` on have not been looked at yet. -/
def Closing (sockfd : Int) (fds : List Int) (i : Nat) (_ : Unit) (next : World ρ) : Prop :=
  ∃ kept, next.Sound sockfd (kept ++ fds.drop i)

theorem round_closing (stored : Int → Bool) {spare : List Int} {i : Nat}
    (inside : i < fds.length) (closing : Closing sockfd fds i () world)
    {halt : Halt Call → World ρ → Prop} :
    wp (do
        let fd ← load (fds ++ spare) i
        if stored fd then socketClose fd else pure ())
      (Closing sockfd fds (i + 1)) halt world := by
  obtain ⟨kept, sound⟩ := closing
  have loaded : (load (fds ++ spare) i : Sys ρ Int) = pure fds[i] :=
    load_eq_pure (by rw [List.getElem?_append_left inside, List.getElem?_eq_getElem inside])
  rw [← List.getElem_cons_drop inside] at sound
  rw [loaded, pure_bind]
  split
  · have first : world.Sound sockfd (fds[i] :: (kept ++ fds.drop (i + 1))) :=
      sound.reorder List.perm_middle.symm
    obtain ⟨isOpen, notListening, closed⟩ := first.closable
    rw [socketClose, wp_bind, wp_close isOpen notListening]
    exact ⟨kept, closed⟩
  · refine ⟨kept ++ [fds[i]], ?_⟩
    rwa [List.append_assoc, List.singleton_append]

/-- The loop that closes the stored clients. -/
theorem wp_closeStored (stored : Int → Bool) (spare : List Int)
    (sound : world.Sound sockfd fds) {halt : Halt Call → World ρ → Prop} :
    wp (forRange (fun i _ => do
          let fd ← load (fds ++ spare) i
          if stored fd then socketClose fd else pure ())
        fds.length 0 ())
      (Closing sockfd fds (0 + fds.length)) halt world := by
  refine wp_forRange fds.length 0 ⟨[], sound⟩ ?_
  intro i _ next _ inside closing
  exact round_closing stored (by omega) closing

/-- Closing everything succeeds and prints nothing. -/
theorem wp_shutdown (stored : Int → Bool) (spare : List Int) (sound : world.Sound sockfd fds)
    {halt : Halt Call → World ρ → Prop} :
    wp (shutdown stored (fds ++ spare) (sizeT fds.length) sockfd)
      (fun _ next => next.Decoded) halt world := by
  have few := sound.length_le
  rw [shutdown, wp_bind, toNat_sizeT (by omega)]
  apply wp_conseq (wp_closeStored stored spare sound)
  rintro - next ⟨kept, sound⟩
  rw [wp_bind, socketClose, wp_bind, wp_close_listening sound.listening]
  exact ⟨sound.decoded.settled, sound.decoded.transcribed.lines,
    sound.decoded.transcribed.finished⟩

/-! ## Whole runs -/

/-- In a state in which a run has halted only decoded words were printed, and the
server waits in a `read` only when it is held up. -/
def Observed (reason : Halt Call) (next : World ρ) : Prop :=
  next.Decoded ∧ ∀ fd, reason = .blocked (.read fd) → next.HeldUp fd

theorem Stopped.observed {reason : Halt Call} (stopped : Stopped sockfd reason world) :
    Observed reason world :=
  ⟨stopped.decoded, stopped.heldUp⟩

/-- What a run of the poll server comes to. -/
theorem Poll.wp_main (environment : Environment (List UInt16)) (rounds : Nat) :
    wp (Poll.main rounds) (fun _ next => next.Decoded) Observed environment.boot := by
  rw [Poll.main, wp_bind]
  refine wp_mono (Poll.wp_start environment) ?_ fun _ _ ⟨_, stopped⟩ => stopped.observed
  rintro ⟨sockfd, server⟩ next holds
  rw [wp_bind]
  have loops : wp (loop Poll.mainRound rounds server) (Poll.Holds sockfd) Observed next := by
    refine wp_loop_partial ?_ ?_ rounds holds
    · intro server world holds
      exact wp_mono (Poll.wp_mainRound holds) (fun _ _ kept => kept) fun _ _ stopped =>
        stopped.observed
    · rintro server world ⟨_, _, _, _, _, sound⟩
      exact ⟨sound.decoded, nofun⟩
  apply wp_conseq loops
  rintro server next ⟨revents, clients, free, rfl, few, sound⟩
  have shut := @wp_shutdown (List UInt16) next sockfd _ (fun fd => fd > 0)
    (List.replicate free (-1)) sound Observed
  rwa [List.length_map] at shut

/-- What a run of the select server comes to. -/
theorem Select.wp_main (environment : Environment (List Int)) (rounds : Nat) :
    wp (Select.main rounds) (fun _ next => next.Decoded) Observed environment.boot := by
  rw [Select.main, wp_bind]
  refine wp_mono (Select.wp_start environment) ?_ ?_
  · rintro ⟨sockfd, server⟩ next ⟨listening, holds⟩
    rw [wp_bind]
    have loops : wp (loop (Select.mainRound sockfd) rounds server) (Select.Holds sockfd)
        Observed next := by
      refine wp_loop_partial ?_ ?_ rounds holds
      · intro server world holds
        exact wp_mono (Select.wp_mainRound listening holds) (fun _ _ kept => kept)
          fun _ _ stopped => stopped.observed
      · rintro server world ⟨_, _, _, _, _, sound⟩
        exact ⟨sound.decoded, nofun⟩
    apply wp_conseq loops
    rintro server next ⟨fds, spare, rfl, few, inRange, sound⟩
    exact wp_shutdown (fun fd => fd ≥ 0) spare sound
  · rintro reason next ⟨⟨_, halted⟩, notBlocked⟩
    exact ⟨halted.decoded, fun fd blocked => absurd blocked (notBlocked (.read fd))⟩

/-- Every run of the poll server prints decoded words only. -/
theorem Poll.decoded_main (environment : Environment (List UInt16)) (rounds : Nat) :
    (finalState (Poll.main rounds environment.boot)).Decoded :=
  finalState_of_wp <| wp_mono (Poll.wp_main environment rounds) (fun _ _ decoded => decoded)
    fun _ _ observed => observed.1

/-- Every run of the select server prints decoded words only. -/
theorem Select.decoded_main (environment : Environment (List Int)) (rounds : Nat) :
    (finalState (Select.main rounds environment.boot)).Decoded :=
  finalState_of_wp <| wp_mono (Select.wp_main environment rounds) (fun _ _ decoded => decoded)
    fun _ _ observed => observed.1

/-! ## What a client gets printed -/

/-- Of a client that sends `words` and whose stream is cut after `length` bytes,
a prefix of its words is printed, and exactly those that arrived complete once
the end of the stream was reported. -/
def Connection.Delivers (connection : Connection) : Prop :=
  ∀ (words : List Token) (length : Nat), (∀ word ∈ words, word.length ≤ 255) →
    streamOf connection.arrived = (sendWords words).take length →
    connection.words <+: words.map Token.bytes ∧
      (connection.ended = true →
        connection.words = Word.arrived (words.map Token.bytes) length)

/-- Decoding undoes encoding. -/
theorem Connection.Settled.delivers {connection : Connection} (settled : connection.Settled) :
    connection.Delivers := by
  intro words length fit stream
  have bounds : ∀ word ∈ words.map Token.bytes, word.length ≤ byteLength.limit := by
    intro word member
    obtain ⟨token, tokenMem, rfl⟩ := List.mem_map.mp member
    exact fit token tokenMem
  have decodedEq : connection.decoded = Word.arrived (words.map Token.bytes) length := by
    rw [decoded, stream, sendWords_eq_frames fit, complete_take_frames byteLength bounds]
    refine (List.map_congr_left ?_).trans (List.map_id _)
    intro word member
    obtain ⟨token, _, rfl⟩ := List.mem_map.mp ((arrived_isPrefix _ length).subset member)
    exact token.cString_bytes
  rw [Settled, decodedEq] at settled
  exact ⟨settled.1.trans (arrived_isPrefix _ length), settled.2⟩

/-- In every run of either server, with any clients, any chunks and any order of
service, the printed lines are those of the connections, and each connection
gets its own words printed. -/
theorem main_delivers :
    (∀ (environment : Environment (List UInt16)) (rounds : Nat),
        let world := finalState (Poll.main rounds environment.boot)
        world.connections.map Connection.words = transcript world.trace ∧
          ∀ connection ∈ world.connections, connection.Delivers) ∧
      ∀ (environment : Environment (List Int)) (rounds : Nat),
        let world := finalState (Select.main rounds environment.boot)
        world.connections.map Connection.words = transcript world.trace ∧
          ∀ connection ∈ world.connections, connection.Delivers := by
  constructor
  · intro environment rounds
    have decoded := Poll.decoded_main environment rounds
    exact ⟨decoded.transcribed.transcript, fun connection member =>
      (decoded.settled connection member).delivers⟩
  · intro environment rounds
    have decoded := Select.decoded_main environment rounds
    exact ⟨decoded.transcribed.transcript, fun connection member =>
      (decoded.settled connection member).delivers⟩

end CExamples.IoMultiplexing
