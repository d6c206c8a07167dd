import CExamples.IoMultiplexing.Decoding

/-!
# A client in the middle of a frame

`read_full` reads from a blocking socket, so a server that has taken the beginning
of a frame waits for the rest of it, and no other client is served meanwhile.  This
is all that a client can do: the server is blocked in a `read` only while the rest
of a frame is missing, after it has printed all complete frames of that client, and
the frames of the other clients are left in their queues.
-/

namespace CExamples.IoMultiplexing

open CExamples.Program
open CExamples.Word

variable {ρ : Type}

/-- The client in whose `read` a run has blocked. -/
def blockedOn {α : Type} : EStateM.Result (Halt Call) (World ρ) α → Option Int
  | .error (.blocked (.read fd)) _ => some fd
  | _ => none

theorem eq_error_of_blockedOn {α : Type} {result : EStateM.Result (Halt Call) (World ρ) α}
    {fd : Int} (blocked : blockedOn result = some fd) :
    result = .error (.blocked (.read fd)) (finalState result) := by
  unfold blockedOn at blocked
  split at blocked
  · cases blocked
    rfl
  · cases blocked

/-- Client 5 sends the length of a word and no letter, client 6 a whole word. -/
def slowClient (ready : List (Reply ρ)) : Environment ρ :=
  { (quiet : Environment ρ) with
    ready := ready
    incoming := [.returned (5, [.bytes 1 []]), .returned (6, [.bytes 1 [97]])] }

/-- Both clients connect, and then `poll` reports both. -/
def slowPoll : Environment (List UInt16) :=
  slowClient [.returned [1], .returned [1, 0], .returned [0, 1, 1]]

/-- Both clients connect, and then `select` reports both. -/
def slowSelect : Environment (List Int) :=
  slowClient [.returned [3], .returned [3], .returned [5, 6]]

/-- In every run of either server, a `read` blocks only in the middle of a frame. -/
theorem main_heldUp :
    (∀ (environment : Environment (List UInt16)) (rounds : Nat) (fd : Int)
        (world : World (List UInt16)),
        Poll.main rounds environment.boot = .error (.blocked (.read fd)) world →
          world.HeldUp fd) ∧
      ∀ (environment : Environment (List Int)) (rounds : Nat) (fd : Int)
        (world : World (List Int)),
        Select.main rounds environment.boot = .error (.blocked (.read fd)) world →
          world.HeldUp fd := by
  constructor
  · intro environment rounds fd world blocked
    have observed := (wp_of_error blocked).mp (Poll.wp_main environment rounds)
    exact observed.2 fd rfl
  · intro environment rounds fd world blocked
    have observed := (wp_of_error blocked).mp (Select.wp_main environment rounds)
    exact observed.2 fd rfl

theorem slowPoll_heldUp : (finalState (Poll.main 3 slowPoll.boot)).HeldUp 5 := by
  have blocked : blockedOn (Poll.main 3 slowPoll.boot) = some 5 := by decide +kernel
  exact main_heldUp.1 slowPoll 3 5 _ (eq_error_of_blockedOn blocked)

/-- A whole word waits. -/
theorem hasFrame_of_pending {world : World ρ} {fd : Int}
    (pending : (world.connection fd).pending = [.bytes 1 [97]]) : world.HasFrame fd := by
  have whole : complete byteLength (1 :: ([97] ++ [])) = [97] :: complete byteLength [] :=
    complete_cons_append byteLength rfl
  rw [World.HasFrame, pending, show streamOf [.bytes 1 [97]] = 1 :: ([97] ++ []) from rfl, whole]
  exact List.cons_ne_nil _ _

/-- The word of client 6 waits behind client 5 in both servers. -/
theorem slowClient_blocks :
    (∃ world, Poll.main 3 slowPoll.boot = .error (.blocked (.read 5)) world ∧
        6 ∈ world.opened ∧ world.HasFrame 6) ∧
      ∃ world, Select.main 3 slowSelect.boot = .error (.blocked (.read 5)) world ∧
        6 ∈ world.opened ∧ world.HasFrame 6 := by
  constructor
  · have blocked : blockedOn (Poll.main 3 slowPoll.boot) = some 5 := by decide +kernel
    exact ⟨_, eq_error_of_blockedOn blocked, by decide +kernel,
      hasFrame_of_pending (by decide +kernel)⟩
  · have blocked : blockedOn (Select.main 3 slowSelect.boot) = some 5 := by decide +kernel
    exact ⟨_, eq_error_of_blockedOn blocked, by decide +kernel,
      hasFrame_of_pending (by decide +kernel)⟩

end CExamples.IoMultiplexing
