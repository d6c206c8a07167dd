import CExamples.Program.Alignment
import CExamples.SharedMemory.Delivery

/-!
# The two sizes of the shared memory

The client maps `SHM_SIZE` rounded up to pages.  The server rounds in the same way and
then adds what is missing to the next page.  Nothing is missing, so it adds a whole page,
and its object is one page larger than the client's mapping.
-/

namespace CExamples.SharedMemory

open CExamples.Program
open CExamples.Transition
open CExamples.Word

/-- The client's `shm_size`. -/
def clientShmSize (pageSize : UInt64) : UInt64 :=
  roundUp (UInt64.ofNat shmSize) pageSize

/-- The client's `shm_size`, unless an operation wraps. -/
def exactClientShmSize (pageSize : UInt64) : Option UInt64 :=
  exactRoundUp (UInt64.ofNat shmSize) pageSize

/-- The server's `shm_size` after its second adjustment. -/
def serverShmSize (pageSize : UInt64) : UInt64 :=
  let rounded := roundUp (UInt64.ofNat shmSize) pageSize
  rounded + (pageSize - rounded % pageSize)

/-- The server's `shm_size`, unless an operation wraps. -/
def exactServerShmSize (pageSize : UInt64) : Option UInt64 := do
  let rounded ← exactRoundUp (UInt64.ofNat shmSize) pageSize
  let missing ← exactSub pageSize (rounded % pageSize)
  exactAdd rounded missing

/-- The index at which the next step of the client stores. -/
def Client.storesAt : Client → Option Nat
  | .copy word index _ => some (min index word.length)
  | .clear => some 0
  | _ => none

/-- The client's mapping lies inside the server's object. -/
structure MappingInside (pageSize client server : UInt64) : Prop where
  clientPages : pageSize.toNat ∣ client.toNat
  serverPages : pageSize.toNat ∣ server.toNat
  clientLarge : shmSize ≤ client.toNat
  serverLarge : shmSize ≤ server.toNat
  least : ∀ {size : Nat}, pageSize.toNat ∣ size → shmSize ≤ size → client.toNat ≤ size
  inside : client ≤ server

/-! ## Sizes -/

section Sizes

variable {pageSize : UInt64} {shift : Nat}

theorem page_le (small : shift ≤ 32) (power : pageSize.toNat = 2 ^ shift) :
    pageSize.toNat ≤ 2 ^ 32 := by
  rw [power]
  exact Nat.pow_le_pow_right (by decide) small

theorem shmSize_fits (large : pageSize.toNat ≤ 2 ^ 32) :
    (UInt64.ofNat shmSize).toNat + pageSize.toNat < 2 ^ 64 := by
  have size : (UInt64.ofNat shmSize).toNat = 1024 := rfl
  omega

/-- The rounded size is at most one page above `SHM_SIZE`. -/
theorem clientShmSize_lt (small : shift ≤ 32) (power : pageSize.toNat = 2 ^ shift) :
    (clientShmSize pageSize).toNat < shmSize + pageSize.toNat := by
  have positive := page_pos power
  have product := Nat.div_mul_le_self (shmSize + pageSize.toNat - 1) pageSize.toNat
  rw [clientShmSize, toNat_roundUp power (shmSize_fits (page_le small power))]
  change (shmSize + pageSize.toNat - 1) / pageSize.toNat * pageSize.toNat < _
  omega

/-- Nothing is missing to the next page, so the server adds a page. -/
theorem missing_eq (small : shift ≤ 32) (power : pageSize.toNat = 2 ^ shift) :
    pageSize - clientShmSize pageSize % pageSize = pageSize := by
  have divides : pageSize.toNat ∣ (clientShmSize pageSize).toNat :=
    dvd_roundUp power (shmSize_fits (page_le small power))
  have rest : clientShmSize pageSize % pageSize = 0 := by
    apply UInt64.toNat_inj.mp
    rw [UInt64.toNat_mod, Nat.mod_eq_zero_of_dvd divides]
    rfl
  rw [rest, UInt64.sub_zero]

theorem server_fits (small : shift ≤ 32) (power : pageSize.toNat = 2 ^ shift) :
    (clientShmSize pageSize).toNat + pageSize.toNat < 2 ^ 64 := by
  have size := clientShmSize_lt small power
  have page := page_le small power
  have shm : shmSize = 1024 := rfl
  omega

theorem toNat_serverShmSize (small : shift ≤ 32) (power : pageSize.toNat = 2 ^ shift) :
    (serverShmSize pageSize).toNat = (clientShmSize pageSize).toNat + pageSize.toNat := by
  have missing := missing_eq small power
  change (clientShmSize pageSize + (pageSize - clientShmSize pageSize % pageSize)).toNat = _
  rw [missing, toNat_add_of_lt (server_fits small power)]

/-- Neither computation wraps. -/
theorem exactShmSize_eq_some (small : shift ≤ 32) (power : pageSize.toNat = 2 ^ shift) :
    exactClientShmSize pageSize = some (clientShmSize pageSize) ∧
      exactServerShmSize pageSize = some (serverShmSize pageSize) := by
  have client : exactClientShmSize pageSize = some (clientShmSize pageSize) :=
    exactRoundUp_eq_some (page_pos power) (shmSize_fits (page_le small power))
  have rest : (clientShmSize pageSize % pageSize).toNat ≤ pageSize.toNat := by
    rw [UInt64.toNat_mod]
    exact Nat.le_of_lt (Nat.mod_lt _ (page_pos power))
  have missing := exactSub_eq_some rest
  have server : exactAdd (clientShmSize pageSize) pageSize =
      some (clientShmSize pageSize + pageSize) :=
    exactAdd_eq_some (server_fits small power)
  constructor
  · exact client
  · change (exactClientShmSize pageSize).bind _ = _
    rw [client, Option.bind_some]
    change (exactSub pageSize (clientShmSize pageSize % pageSize)).bind _ =
      some (clientShmSize pageSize + (pageSize - clientShmSize pageSize % pageSize))
    rw [missing, Option.bind_some, missing_eq small power, server]

theorem mappingInside (small : shift ≤ 32) (power : pageSize.toNat = 2 ^ shift) :
    MappingInside pageSize (clientShmSize pageSize) (serverShmSize pageSize) := by
  have fits := shmSize_fits (page_le small power)
  have server := toNat_serverShmSize small power
  have divides : pageSize.toNat ∣ (clientShmSize pageSize).toNat := dvd_roundUp power fits
  have large : shmSize ≤ (clientShmSize pageSize).toNat := le_roundUp power fits
  constructor
  · exact divides
  · rw [server]
    exact Nat.dvd_add divides (Nat.dvd_refl _)
  · exact large
  · rw [server]
    exact Nat.le_trans large (Nat.le_add_right _ _)
  · intro size sizeDvd sizeLarge
    exact roundUp_le power fits sizeDvd sizeLarge
  · rw [UInt64.le_iff_toNat_le, server]
    exact Nat.le_add_right _ _

end Sizes

/-! ## Stores -/

section Stores

variable {memory : Memory} {words : List Token} {state after : State}

/-- A step of the client stores at no other index. -/
theorem clientStep_storesAt (stepped : clientStep state = some after)
    (stored : state.client.Stored state.memory) :
    after.memory = state.memory ∨
      ∃ index byte, state.client.storesAt = some index ∧
        after.memory = state.memory.store index byte := by
  cases clientStep_acts stepped with
  | @copies word index later byte clientEq byteEq =>
      rw [clientEq] at stored
      rw [clientEq]
      exact Or.inr ⟨index, byte, congrArg some (Nat.min_eq_left stored.2.1), rfl⟩
  | @terminates word index later clientEq ended =>
      rw [clientEq]
      exact Or.inr ⟨word.length, 0, congrArg some (Nat.min_eq_right ended), rfl⟩
  | clears clientEq =>
      rw [clientEq]
      exact Or.inr ⟨0, 0, rfl, rfl⟩
  | _ => exact Or.inl rfl

/-- The client stores inside `SHM_SIZE`. -/
theorem storesAt_lt (stored : state.client.Stored state.memory) {index : Nat}
    (stores : state.client.storesAt = some index) : index < shmSize := by
  cases clientEq : state.client with
  | copy word place later =>
      rw [clientEq] at stored stores
      have placeEq : min place word.length = index := Option.some.inj stores
      have short := stored.1
      omega
  | clear =>
      rw [clientEq] at stores
      have zero : 0 = index := Option.some.inj stores
      rw [← zero]
      decide
  | _ =>
      rw [clientEq] at stores
      cases stores

end Stores

/-- For every page size up to `2 ^ 32` that is a power of two, neither size wraps, the
client's mapping is the least number of pages that holds `SHM_SIZE` and lies inside the
server's object, and every step of a run stores only inside both. -/
theorem mapping_holds_stores {pageSize : UInt64} {shift : Nat} (small : shift ≤ 32)
    (power : pageSize.toNat = 2 ^ shift) :
    exactClientShmSize pageSize = some (clientShmSize pageSize) ∧
      exactServerShmSize pageSize = some (serverShmSize pageSize) ∧
      MappingInside pageSize (clientShmSize pageSize) (serverShmSize pageSize) ∧
      (∀ length < shmSize - 1, ∀ index ≤ length,
        index < (clientShmSize pageSize).toNat ∧ index < (serverShmSize pageSize).toNat) ∧
      ∀ memory words state after, Reachable step (initial memory words) state →
        clientStep state = some after →
          after.memory = state.memory ∨
            ∃ index byte, after.memory = state.memory.store index byte ∧
              index < (clientShmSize pageSize).toNat ∧
              index < (serverShmSize pageSize).toNat := by
  have exact := exactShmSize_eq_some small power
  have inside := mappingInside small power
  refine ⟨exact.1, exact.2, inside, ?_, ?_⟩
  · intro length short index within
    have below : index < shmSize := by omega
    exact ⟨Nat.lt_of_lt_of_le below inside.clientLarge,
      Nat.lt_of_lt_of_le below inside.serverLarge⟩
  · intro memory words state after reachable stepped
    rcases reachable_exchanges reachable with ⟨left, exchanges⟩
    rcases clientStep_storesAt stepped exchanges.stored with same | ⟨index, byte, stores, memoryEq⟩
    · exact Or.inl same
    · have below := storesAt_lt exchanges.stored stores
      exact Or.inr ⟨index, byte, memoryEq, Nat.lt_of_lt_of_le below inside.clientLarge,
        Nat.lt_of_lt_of_le below inside.serverLarge⟩

/-- With pages of 4096 bytes the client maps one page of the server's two. -/
theorem fourKibibyte_mapping_holds_stores :
    exactClientShmSize 4096 = some 4096 ∧ exactServerShmSize 4096 = some 8192 := by
  have sizes := @mapping_holds_stores 4096 12 (by decide) rfl
  exact ⟨sizes.1, sizes.2.1⟩

end CExamples.SharedMemory
