import CExamples.IoMultiplexing.ReadWord
import CExamples.Program.Keeps

/-!
# What serving a client leaves alone

To read a frame the servers call `read`, `close` and `printf` only.  None of them takes
an answer of `select`, of `accept` or of the allocator, or touches `SOCKET_PATH`, and
none ends the process.
-/

namespace CExamples.IoMultiplexing

open CExamples.Program

variable {ρ : Type}

/-- Two worlds in which the same answers are left, and the same name exists. -/
structure World.Alike (world next : World ρ) : Prop where
  ready : next.ready = world.ready
  incoming : next.incoming = world.incoming
  allocations : next.allocations = world.allocations
  socketPath : next.socketPath = world.socketPath

/-- A property of what serving a client leaves alone; without `exit` a halt is allowed. -/
structure Indifferent (inv : World ρ → Prop) (halt : Halt Call → World ρ → Prop) : Prop where
  keeps : ∀ world next : World ρ, world.Alike next → inv world → inv next
  halts : ∀ reason world, inv world → (∀ code message, reason ≠ .exit code message) →
    halt reason world

namespace Indifferent

variable {inv : World ρ → Prop} {halt : Halt Call → World ρ → Prop}
  (indifferent : Indifferent inv halt)

include indifferent

theorem fault (world : World ρ) (holds : inv world) : halt .fault world :=
  indifferent.halts .fault world holds (by simp)

theorem fuel (world : World ρ) (holds : inv world) : halt .fuel world :=
  indifferent.halts .fuel world holds (by simp)

theorem readExitFlag : Keeps inv halt (readExitFlag : Sys ρ Bool) := by
  intro world holds
  simp only [IoMultiplexing.readExitFlag, wp_bind, wp_get]
  cases world.signals with
  | nil => exact holds
  | cons sigint signals => exact indifferent.keeps world _ ⟨rfl, rfl, rfl, rfl⟩ holds

theorem close (fd : Int) : Keeps inv halt (close fd : Sys ρ Bool) := by
  intro world holds
  simp only [IoMultiplexing.close, wp_bind, wp_get]
  split
  · exact indifferent.keeps world _ ⟨rfl, rfl, rfl, rfl⟩ holds
  · split
    · exact indifferent.keeps world _ ⟨rfl, rfl, rfl, rfl⟩ holds
    · exact indifferent.keeps world _ ⟨rfl, rfl, rfl, rfl⟩ holds

theorem print (line : Line) : Keeps inv halt (print line : Sys ρ Unit) :=
  Keeps.modify fun world => indifferent.keeps world _ ⟨rfl, rfl, rfl, rfl⟩

theorem read (fd : Int) (count : Nat) : Keeps inv halt (read fd count : Sys ρ ReadResult) := by
  intro world holds
  simp only [IoMultiplexing.read, wp_bind, wp_get]
  split
  · split
    · exact indifferent.halts _ world holds (by simp)
    · exact indifferent.keeps world _ ⟨rfl, rfl, rfl, rfl⟩ holds
  · exact holds

theorem readFull (fd : Int) (buf : List UInt8) (n : Nat) :
    Keeps inv halt (readFull fd buf n : Sys ρ (Int × List UInt8)) := by
  have round (locals : Nat × List UInt8) : Keeps inv halt (@readFullRound ρ fd n locals) := by
    obtain ⟨off, buf⟩ := locals
    rw [readFullRound]
    split
    · apply (indifferent.read fd (n - off)).bind
      rintro (got | _ | _ | _)
      · exact (Keeps.storeAll indifferent.fault buf off got).bind fun buf => Keeps.pure _
      · exact Keeps.pure _
      · exact Keeps.pure _
      · exact Keeps.pure _
    · exact Keeps.pure _
  rw [IoMultiplexing.readFull]
  exact Keeps.get.bind fun world => Keeps.loop round indifferent.fuel _ _

theorem readPayload (fd : Int) (wordLength : Nat) :
    Keeps inv halt (readPayload fd wordLength : Sys ρ Bool) := by
  rw [IoMultiplexing.readPayload]
  refine Keeps.get.bind fun world => (indifferent.readFull fd world.word wordLength).bind ?_
  rintro ⟨code, word⟩
  simp only
  split
  · exact (indifferent.print _).bind fun _ => Keeps.pure false
  · apply (Keeps.store indifferent.fault word wordLength 0).bind
    intro word
    apply Keeps.bind
    · exact Keeps.modify fun world => indifferent.keeps world _ ⟨rfl, rfl, rfl, rfl⟩
    · exact fun _ => Keeps.pure true

theorem readWord (fd : Int) : Keeps inv halt (readWord fd : Sys ρ Bool) := by
  rw [IoMultiplexing.readWord]
  apply Keeps.bind
  · exact Keeps.modify fun world => indifferent.keeps world _ ⟨rfl, rfl, rfl, rfl⟩
  · rintro -
    apply (indifferent.readFull fd [0] 1).bind
    rintro ⟨code, lengthByte⟩
    simp only
    split
    · exact (indifferent.print _).bind fun _ => Keeps.pure false
    · apply (Keeps.load indifferent.fault lengthByte 0).bind
      intro letter
      split
      · exact (indifferent.print _).bind fun _ => Keeps.pure false
      · exact indifferent.readPayload fd _

end Indifferent

end CExamples.IoMultiplexing
