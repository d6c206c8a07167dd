import CExamples.IoMultiplexing.Invariant

/-!
# A pass over the clients of a server

Each server goes once over its array after every multiplexing call, and requests
a frame from the clients reported ready.  The two loops advance differently, so
the order of the visits is a parameter here.  What they share is that a client
still to be visited has not been read, so that the outcome of its visit is known
from the beginning of the pass.
-/

namespace CExamples.IoMultiplexing

variable {ρ α : Type} (fdOf : α → Int) (ready : α → Bool)

/-- The descriptors of the ready ones among some clients. -/
def readyFds (clients : List α) : List Int :=
  (clients.filter ready).map fdOf

theorem readyFds_append (first second : List α) :
    readyFds fdOf ready (first ++ second) =
      readyFds fdOf ready first ++ readyFds fdOf ready second := by
  simp [readyFds]

theorem reverse_readyFds_singleton (client : α) :
    (readyFds fdOf ready [client]).reverse = readyFds fdOf ready [client] := by
  cases isReady : ready client <;> simp [readyFds, isReady]

theorem readyFds_nodup {clients : List α} (nodup : (clients.map fdOf).Nodup) :
    (readyFds fdOf ready clients).Nodup :=
  nodup.sublist (List.filter_sublist.map fdOf)

/-- What holds after some visits of a pass that began with `clients` in `world`:
`rest` are the clients from the next index on, and `visits` is the order of the
visits. -/
structure Passing (visits : List α → List α) (clients : List α) (world : World ρ)
    (rest : List α) (next : World ρ) : Prop where
  member : ∀ client ∈ rest, client ∈ clients
  unread : ∀ client ∈ rest, next.connection (fdOf client) = world.connection (fdOf client)
  visited : ∃ visited,
    attempts next.trace = (readyFds fdOf ready visited).reverse ++ attempts world.trace ∧
      visited ++ visits rest = visits clients

namespace Passing

variable {fdOf ready} {visits : List α → List α} {clients : List α} {world next : World ρ}

theorem initial : Passing fdOf ready visits clients world clients world :=
  ⟨fun _ member => member, fun _ _ => rfl, [], rfl, rfl⟩

/-- At the end the pass has visited all that it visits. -/
theorem final (passing : Passing fdOf ready visits clients world [] next)
    (nothing : visits [] = []) :
    attempts next.trace =
      (readyFds fdOf ready (visits clients)).reverse ++ attempts world.trace := by
  obtain ⟨visited, attempted, split⟩ := passing.visited
  rw [nothing, List.append_nil] at split
  rw [← split, attempted]

/-- One visit, which reads at most the visited client and leaves some of the
clients after it. -/
theorem advance {client : α} {after rest : List α} {next' : World ρ}
    (passing : Passing fdOf ready visits clients world (client :: after) next)
    (first : visits (client :: after) = client :: visits rest)
    (subset : ∀ other ∈ rest, other ∈ after)
    (distinct : ∀ other ∈ after, fdOf other ≠ fdOf client)
    (attempted : attempts next'.trace = readyFds fdOf ready [client] ++ attempts next.trace)
    (others : ∀ fd, fd ≠ fdOf client → next'.connection fd = next.connection fd) :
    Passing fdOf ready visits clients world rest next' := by
  obtain ⟨visited, attemptedBefore, split⟩ := passing.visited
  refine ⟨?_, ?_, visited ++ [client], ?_, ?_⟩
  · intro other member
    exact passing.member other (List.mem_cons_of_mem client (subset other member))
  · intro other member
    have inAfter := subset other member
    rw [others (fdOf other) (distinct other inAfter)]
    exact passing.unread other (List.mem_cons_of_mem client inAfter)
  · rw [attempted, attemptedBefore, readyFds_append, List.reverse_append, List.append_assoc,
      reverse_readyFds_singleton]
  · rw [← split, first, List.append_assoc, List.singleton_append]

end Passing

/-! ## Two clients

The smallest situation in which the loops differ. -/

/-- An environment in which nothing happens. -/
def quiet : Environment ρ where
  signals := []
  ready := []
  incoming := []
  allocations := []
  junk := fun _ => 0
  socketReply := some 3
  bindReply := true
  listenReply := true
  socketPath := false
  word := fun _ => 0

/-- Client 5 has closed its stream, and client 6 has sent the word `a`. -/
def crowded : World ρ :=
  (World.established { quiet.boot with listening := some 3 } 5 [.endOfStream]).established 6
    [.bytes 1 [97]]

theorem crowded_sound : (crowded : World ρ).Sound 3 [5, 6] := by
  have listens := ((World.Idle.boot (quiet : Environment ρ)).bound (some 3)).sound rfl
  have five := listens.established [.endOfStream]
    (show 0 ≤ (5 : Int) ∧ 5 < 2147483648 ∧ some (3 : Int) ≠ some 5 ∧ (5 : Int) ∉ [] by decide)
  have six := five.established [.bytes 1 [97]]
    (show 0 ≤ (6 : Int) ∧ 6 < 2147483648 ∧ some (3 : Int) ≠ some 6 ∧ (6 : Int) ∉ [5] by decide)
  exact six.reorder (List.Perm.swap 6 5 [])

theorem crowded_prompt (fd : Int) (member : fd ∈ [5, 6]) : ¬(crowded : World ρ).waits fd := by
  rcases List.mem_pair.mp member with rfl | rfl <;> exact nofun

end CExamples.IoMultiplexing
