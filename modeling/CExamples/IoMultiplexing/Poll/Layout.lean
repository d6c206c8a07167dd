import CExamples.IoMultiplexing.Poll.Core
import CExamples.Sequence.SwapRemove

/-!
# The poll server's arrays as a list of clients

Abstractly the server has a list of clients, each with the `revents` of the
last `poll`, and a number of free slots.  `layout` writes such a list into the
two arrays of the program.  The functions of the program take layouts to
layouts: a new client is appended, and a removed client's place is taken by the
last one.
-/

namespace CExamples.IoMultiplexing.Poll

open CExamples.Program
open CExamples.Sequence

/-- A client and what the last `poll` reported for it. -/
structure Client where
  fd : Int
  revents : UInt16
  deriving DecidableEq, Repr

namespace Client

/-- The entry of `fds` that belongs to a client. -/
def entry (client : Client) : PollFd :=
  ⟨client.fd, pollin, client.revents⟩

/-- Whether the last `poll` reported the client ready. -/
def Ready (client : Client) : Prop :=
  client.entry.Readable

instance (client : Client) : Decidable client.Ready :=
  inferInstanceAs (Decidable client.entry.Readable)

end Client

/-- The arrays that hold a list of clients and `free` free slots. -/
def layout (sockfd : Int) (revents : UInt16) (clients : List Client) (free : Nat) : Server where
  clientSockets := clients.map Client.fd ++ List.replicate free (-1)
  clientCount := sizeT clients.length
  clientCapacity := sizeT (clients.length + free)
  fds := ⟨sockfd, pollin, revents⟩ ::
    (clients.map Client.entry ++ List.replicate free .unused)

variable {sockfd : Int} {revents : UInt16} {world : World (List UInt16)}

section Slots

variable (before after : List Client) (client : Client) (free : Nat)

theorem load_clientSockets :
    (load (layout sockfd revents (before ++ client :: after) free).clientSockets before.length :
      PollSys Int) = pure client.fd := by
  apply load_eq_pure
  simp [layout]

theorem load_fds :
    (load (layout sockfd revents (before ++ client :: after) free).fds (before.length + 1) :
      PollSys PollFd) = pure client.entry := by
  apply load_eq_pure
  simp [layout]

/-- Writing an entry of `fds` that differs in `revents` only. -/
theorem store_fds (seen : UInt16) :
    (store (layout sockfd revents (before ++ client :: after) free).fds (before.length + 1)
        { client.entry with revents := seen } : PollSys (List PollFd)) =
      pure (layout sockfd revents (before ++ ⟨client.fd, seen⟩ :: after) free).fds := by
  rw [store_eq_pure _ (by simp [layout])]
  simp [layout, Client.entry]

/-- A client's `revents` are in `fds` only. -/
theorem layout_seen (seen : UInt16) :
    { layout sockfd revents (before ++ client :: after) free with
      fds := (layout sockfd revents (before ++ ⟨client.fd, seen⟩ :: after) free).fds } =
      layout sockfd revents (before ++ ⟨client.fd, seen⟩ :: after) free := by
  simp [layout]

end Slots

/-- Moving the last client leaves it in the list twice. -/
theorem moveLast_layout {before between : List Client} {client last : Client} {free : Nat}
    (small : before.length + between.length + 2 < 2 ^ 64) :
    moveLast (layout sockfd revents (before ++ client :: (between ++ [last])) free)
        (sizeT before.length) (sizeT (before.length + between.length + 1)) =
      pure (layout sockfd revents (before ++ last :: (between ++ [last])) free) := by
  have shape : before ++ client :: (between ++ [last]) =
      (before ++ client :: between) ++ last :: [] := by simp
  have lengthEq : before.length + between.length + 1 =
      (before ++ client :: between).length := by
    simp [Nat.add_assoc]
  simp only [moveLast, sizeT_add_one, toNat_sizeT (show before.length < 2 ^ 64 by omega),
    toNat_sizeT (show before.length + 1 < 2 ^ 64 by omega),
    toNat_sizeT (show before.length + between.length + 1 < 2 ^ 64 by omega),
    toNat_sizeT (show before.length + between.length + 1 + 1 < 2 ^ 64 by omega)]
  rw [shape, lengthEq, load_clientSockets, pure_bind, store_eq_pure _ (by simp [layout]),
    pure_bind, load_fds, pure_bind, store_eq_pure _ (by simp [layout]), pure_bind]
  simp [layout]

/-- Clearing the last slot drops the last client. -/
theorem clearLast_layout {clients : List Client} {last : Client} {free : Nat}
    (small : clients.length + 1 < 2 ^ 64) :
    clearLast (layout sockfd revents (clients ++ [last]) free) (sizeT clients.length) =
      pure (layout sockfd revents clients (free + 1)) := by
  simp only [clearLast, sizeT_add_one, toNat_sizeT (show clients.length < 2 ^ 64 by omega),
    toNat_sizeT small]
  rw [store_eq_pure _ (by simp [layout]), pure_bind, store_eq_pure _ (by simp [layout]),
    pure_bind]
  simp [layout, sizeT_succ_sub_one, List.replicate_succ, Nat.add_assoc, Nat.add_comm 1 free]

/-- Removing a client: its descriptor is closed, the last client takes its
place, and the last slot is free again. -/
theorem wp_handleClientDisconnection {before after : List Client} {client : Client} {free : Nat}
    (small : before.length + after.length + 1 < 2 ^ 64)
    (isOpen : client.fd ∈ world.opened) (notListening : world.listening ≠ some client.fd)
    {post : Server → World (List UInt16) → Prop} {halt : Halt Call → World (List UInt16) → Prop} :
    wp (handleClientDisconnection (layout sockfd revents (before ++ client :: after) free)
        (sizeT before.length)) post halt world ↔
      post (layout sockfd revents (before ++ closeGap after) (free + 1))
        (world.closing client.fd) := by
  have lastEq : (layout sockfd revents (before ++ client :: after) free).clientCount - 1 =
      sizeT (before.length + after.length) := by
    rw [← sizeT_succ_sub_one]
    simp [layout, Nat.add_assoc]
  simp only [handleClientDisconnection, lastEq, toNat_sizeT (show before.length < 2 ^ 64 by omega)]
  rw [load_clientSockets, pure_bind, wp_bind, wp_close isOpen notListening]
  rcases List.eq_nil_or_concat after with rfl | ⟨between, last, rfl⟩
  · rw [if_neg (by simp), List.length_nil, Nat.add_zero, clearLast_layout (by omega), wp_pure,
      closeGap_nil, List.append_nil]
  · have moves : sizeT before.length ≠ sizeT (before.length + (between.concat last).length) := by
      rw [ne_eq, sizeT_inj (by omega) (by omega), List.length_concat]
      omega
    have shape : before ++ last :: (between ++ [last]) = (before ++ last :: between) ++ [last] := by
      simp
    have lengthEq : before.length + between.length + 1 = (before ++ last :: between).length := by
      simp [Nat.add_assoc]
    rw [List.length_concat] at small moves
    rw [if_pos (by simpa using moves), List.concat_eq_append, List.length_append,
      List.length_singleton, ← Nat.add_assoc, moveLast_layout (by omega), pure_bind, shape,
      lengthEq, clearLast_layout (by rw [← lengthEq]; omega), wp_pure, closeGap_concat]

end CExamples.IoMultiplexing.Poll
