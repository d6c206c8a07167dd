import CExamples.DomainSocket.Socketpair.Stores
import CExamples.Pipe.Reliable.Stores

/-!
# The word buffers of the reliable pipe and of the socket pair

The check of both children admits words of `MAX_WORD_LENGTH` letters.  Of the four
buffers only that of the child of the socket pair has a byte for the terminator of such
a word; the child and the parent of the pipe and the parent of the socket pair store it
behind theirs.
-/

namespace CExamples.WordBuffers

open CExamples.Word

/-- In all runs of both programs on the file the processes stay inside their buffers. -/
def InBounds (file : List UInt8) : Prop :=
  Pipe.Reliable.StoresInBounds file ∧ DomainSocket.Socketpair.StoresInBounds file

/-- Both programs stay inside their buffers on the same files. -/
theorem inBounds_iff {file : List UInt8} : InBounds file ↔ LeavesRoom isDelimiter 255 file := by
  have pipe : Pipe.Reliable.StoresInBounds file ↔ LeavesRoom isDelimiter 255 file :=
    Pipe.Reliable.storesInBounds_iff
  have socketpair : DomainSocket.Socketpair.StoresInBounds file ↔
      LeavesRoom isDelimiter 255 file :=
    DomainSocket.Socketpair.storesInBounds_iff
  rw [InBounds, pipe, socketpair, and_self_iff]

/-- A word of 255 letters has no byte left for its terminator. -/
theorem fullWord_strays : ¬InBounds (List.replicate 255 97) := by
  rintro ⟨inBounds, -⟩
  have roomy : LeavesRoom isDelimiter 255 (List.replicate 255 97) :=
    Pipe.Reliable.storesInBounds_iff.mp inBounds
  have member : List.replicate 255 97 ∈ acceptedBy isDelimiter 255 (List.replicate 255 97) := by
    rw [acceptedBy, wordsBy_replicate rfl (Nat.zero_lt_succ 254), List.takeWhile_cons_of_pos]
    · exact List.mem_cons_self
    · rw [List.length_replicate]
      rfl
  have short := roomy _ member
  rw [List.length_replicate] at short
  exact Nat.lt_irrefl 255 short

end CExamples.WordBuffers
