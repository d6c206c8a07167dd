import CExamples.Program.Array
import CExamples.Program.Passes

/-!
# Full transfers

`write_fully` and `read_fully` of `pipe/reliable/main.c`, on their own.  Both repeat their
call until nothing is left to transfer.  A `write` transfers at least one byte, but a
`read` behind the end of the stream returns 0, and `read_fully` repeats it for ever.
-/

namespace CExamples.Pipe.Reliable.Fully

open CExamples.Program

/-- What the environment lets a call do: fail, or transfer at most `more + 1` bytes. -/
inductive Transfer
  | error
  | bytes (more : Nat)
  deriving DecidableEq

/-- How a function is left: it returns, or it ends the program with `error_exit`. -/
inductive Exit
  | returned
  | failed (message : String)
  deriving DecidableEq

/-- The data at `ptr` that `count` covers, the bytes put on the pipe, and the number of
calls. -/
structure Writing where
  data : List UInt8
  pipe : List UInt8
  calls : Nat
  deriving DecidableEq

/-- One pass of `write_fully`. -/
def writePass (answers : Nat → Transfer) (state : Writing) : Pass Writing (Writing × Exit) :=
  if state.data.length > 0 then
    match answers state.calls with
    | .error => .left (state, .failed "Error writing fully to pipe")
    | .bytes more =>
        let written := min (more + 1) state.data.length
        .again
          { data := state.data.drop written
            pipe := state.pipe ++ state.data.take written
            calls := state.calls + 1 }
  else .left (state, .returned)

/-- The memory around `buf`, the offset of `ptr`, `count`, the stream, the number of calls,
and the offset and length of what each call has stored. -/
structure Reading where
  memory : List UInt8
  offset : Nat
  count : Nat
  stream : List UInt8
  calls : Nat
  stores : List (Nat × Nat)
  deriving DecidableEq

/-- One pass of `read_fully`.  At the end of the stream `read` returns 0. -/
def readPass (answers : Nat → Transfer) (state : Reading) : Pass Reading (Reading × Exit) :=
  if state.count > 0 then
    match answers state.calls with
    | .error => .left (state, .failed "Error reading fully from pipe")
    | .bytes more =>
        let got := state.stream.take (min (more + 1) state.count)
        .again
          { memory := overwrite state.memory state.offset got
            offset := state.offset + got.length
            count := state.count - got.length
            stream := state.stream.drop got.length
            calls := state.calls + 1
            stores := state.stores ++ [(state.offset, got.length)] }
  else .left (state, .returned)

/-- Memory with room for `count` bytes. -/
structure Buffer (count : Nat) where
  bytes : List UInt8
  room : count ≤ bytes.length

/-- The call `read_fully(fd, buf, count)`. -/
def startReading {count : Nat} (buffer : Buffer count) (stream : List UInt8) : Reading where
  memory := buffer.bytes
  offset := 0
  count := count
  stream := stream
  calls := 0
  stores := []

/-- `write_fully` returns and has put its data on the pipe. -/
def WritesFully (shorts : Nat → Nat) (data pipe : List UInt8) : Prop :=
  ∃ after, Leaves (writePass fun call => .bytes (shorts call))
      { data := data, pipe := pipe, calls := 0 } (after, .returned) ∧
    after.pipe = pipe ++ data

/-- `read_fully` returns with the next `count` bytes of the stream in its buffer, and has
stored nothing behind them; if there are fewer, it ends without success. -/
def ReadsFully (shorts : Nat → Nat) {count : Nat} (buffer : Buffer count) (stream : List UInt8) :
    Prop :=
  ∃ after exit, Leaves (readPass fun call => .bytes (shorts call)) (startReading buffer stream)
      (after, exit) ∧
    (∀ store ∈ after.stores, store.1 + store.2 ≤ count) ∧
    (count ≤ stream.length → exit = .returned ∧
      after.memory = stream.take count ++ buffer.bytes.drop count ∧
      after.stream = stream.drop count) ∧
    (stream.length < count → exit ≠ .returned)

/-! ## Writing -/

/-- `write_fully` ends, whatever its calls do.  Then all data are on the pipe, or a call has
failed. -/
theorem writing_ends (answers : Nat → Transfer) (data pipe : List UInt8) :
    ∃ result, Leaves (writePass answers) { data := data, pipe := pipe, calls := 0 } result ∧
      (result.2 = .returned ∧ result.1.pipe = pipe ++ data ∨
        ∃ call, answers call = .error) := by
  -- what is on the pipe and what is left to write stay the same together
  refine @exists_leaves _ _ _ (fun state : Writing => state.pipe ++ state.data = pipe ++ data) _
    (fun state : Writing => state.data.length) ?_ _ rfl
  intro state whole
  by_cases more : state.data.length > 0
  · rw [writePass, if_pos more]
    cases answer : answers state.calls with
    | error => exact Or.inl ⟨_, rfl, Or.inr ⟨state.calls, answer⟩⟩
    | bytes size =>
        refine Or.inr ⟨_, rfl, ?_, ?_⟩
        · change state.pipe ++ _ ++ _ = _
          rw [List.append_assoc, List.take_append_drop, whole]
        · change (state.data.drop _).length < _
          rw [List.length_drop]
          omega
  · have none : state.data = [] := List.eq_nil_of_length_eq_zero (Nat.eq_zero_of_not_pos more)
    rw [writePass, if_neg more]
    rw [none, List.append_nil] at whole
    exact Or.inl ⟨_, rfl, Or.inl ⟨rfl, whole⟩⟩

/-! ## Reading -/

/-- What was read lies at the beginning of the buffer, and the stream goes on behind it. -/
structure Reads {count : Nat} (buffer : Buffer count) (stream : List UInt8) (state : Reading) :
    Prop where
  read : ∃ got, got ++ state.stream = stream ∧ got.length = state.offset ∧
    state.memory = overwrite buffer.bytes 0 got
  counted : state.offset + state.count = count
  stores : ∀ store ∈ state.stores, store.1 + store.2 ≤ count

section Read

variable {count : Nat} {buffer : Buffer count} {stream : List UInt8} {state : Reading}

theorem reads_start (buffer : Buffer count) (stream : List UInt8) :
    Reads buffer stream (startReading buffer stream) where
  read := ⟨[], rfl, rfl, (overwrite_nil _ _).symm⟩
  counted := Nat.zero_add count
  stores := fun _ member => nomatch member

/-- A call keeps the invariant, whatever it gets. -/
theorem Reads.again (reads : Reads buffer stream state) {size : Nat} (within : size ≤ state.count) :
    let got := state.stream.take size
    Reads buffer stream
      { memory := overwrite state.memory state.offset got
        offset := state.offset + got.length
        count := state.count - got.length
        stream := state.stream.drop got.length
        calls := state.calls + 1
        stores := state.stores ++ [(state.offset, got.length)] } := by
  intro got
  have counted := reads.counted
  have short : got.length ≤ state.count :=
    Nat.le_trans (List.length_take_le size state.stream) within
  rcases reads.read with ⟨before, whole, lengthEq, memoryEq⟩
  constructor
  · refine ⟨before ++ got, ?_, ?_, ?_⟩
    · have rest : got ++ state.stream.drop got.length = state.stream :=
        List.prefix_iff_eq_append.mp (List.take_prefix size state.stream)
      rw [List.append_assoc, rest, whole]
    · rw [List.length_append, lengthEq]
    · have room := buffer.room
      have merged := @overwrite_overwrite _ buffer.bytes before 0 got (by omega)
      rw [Nat.zero_add, lengthEq, ← memoryEq] at merged
      exact merged
  · simp only
    omega
  · intro store member
    rcases List.mem_append.mp member with old | new
    · exact reads.stores store old
    · rw [List.mem_singleton.mp new]
      simp only
      omega

/-- The stream is as long as what was read and what is to come. -/
theorem Reads.length_eq (reads : Reads buffer stream state) :
    state.offset + state.stream.length = stream.length := by
  rcases reads.read with ⟨got, whole, lengthEq, _⟩
  rw [← whole, List.length_append, lengthEq]

/-- When nothing is left to read, the next `count` bytes are in the buffer. -/
theorem Reads.returned (reads : Reads buffer stream state) (all : state.count = 0) :
    state.memory = stream.take count ++ buffer.bytes.drop count ∧
      state.stream = stream.drop count := by
  have counted := reads.counted
  rcases reads.read with ⟨got, whole, lengthEq, memoryEq⟩
  have countEq : got.length = count := by omega
  have front : stream.take count = got := by
    rw [← whole, ← countEq, List.take_left]
  constructor
  · rw [memoryEq, overwrite, List.take_zero, List.nil_append, Nat.zero_add, countEq, front]
  · rw [← whole, ← countEq, List.drop_left]

end Read

/-- A stream that is long enough is read to the end of the buffer. -/
theorem reading_ends (shorts : Nat → Nat) {count : Nat} (buffer : Buffer count)
    {stream : List UInt8} (enough : count ≤ stream.length) :
    ∃ result, Leaves (readPass fun call => .bytes (shorts call)) (startReading buffer stream)
        result ∧
      result.2 = .returned ∧ Reads buffer stream result.1 ∧ result.1.count = 0 := by
  refine @exists_leaves _ _ _ (Reads buffer stream) _ Reading.count ?_ _
    (reads_start buffer stream)
  intro state reads
  by_cases more : state.count > 0
  · have counted := reads.counted
    have lengthEq := reads.length_eq
    refine Or.inr ⟨_, if_pos more, reads.again (Nat.min_le_right _ _), ?_⟩
    change state.count - (state.stream.take _).length < state.count
    rw [List.length_take]
    omega
  · rw [readPass, if_neg more]
    exact Or.inl ⟨_, rfl, rfl, reads, Nat.eq_zero_of_not_pos more⟩

/-- A stream that is too short is read for ever. -/
theorem reading_spins (shorts : Nat → Nat) {count : Nat} (buffer : Buffer count)
    {stream : List UInt8} (short : stream.length < count) (result : Reading × Exit) :
    ¬Leaves (readPass fun call => .bytes (shorts call)) (startReading buffer stream) result := by
  refine @not_leaves _ _ _ (fun state : Reading => state.stream.length < state.count) ?_ _ short
    result
  intro state short
  refine ⟨_, if_pos (Nat.zero_lt_of_lt short), ?_⟩
  change (state.stream.drop _).length < state.count - (state.stream.take _).length
  rw [List.length_drop, List.length_take]
  omega

/-- `write_fully` finishes with every sequence of short counts, and `read_fully` exactly if
the stream has as many bytes as it is to read. -/
theorem transfers_finish (shorts : Nat → Nat) :
    (∀ data pipe, WritesFully shorts data pipe) ∧
      ∀ {count : Nat} (buffer : Buffer count) (stream : List UInt8),
        ReadsFully shorts buffer stream ↔ count ≤ stream.length := by
  constructor
  · intro data pipe
    rcases writing_ends (fun call => .bytes (shorts call)) data pipe with
      ⟨⟨after, exit⟩, leaves, ⟨returned, pipeEq⟩ | ⟨call, failed⟩⟩
    · cases returned
      exact ⟨after, leaves, pipeEq⟩
    · cases failed
  · intro count buffer stream
    constructor
    · rintro ⟨after, exit, leaves, _⟩
      apply Nat.le_of_not_lt
      intro short
      exact reading_spins shorts buffer short _ leaves
    · intro enough
      rcases reading_ends shorts buffer enough with ⟨⟨after, exit⟩, leaves, returned, reads, all⟩
      have results := reads.returned all
      refine ⟨after, exit, leaves, reads.stores, ?_, ?_⟩
      · exact fun _ => ⟨returned, results⟩
      · exact fun short => absurd enough (Nat.not_le.mpr short)

/-- From a stream of one byte two are read for ever. -/
theorem shortStream_spins :
    ¬ReadsFully (fun _ => 0) (⟨[0, 0], Nat.le_refl 2⟩ : Buffer 2) [65] := by
  rintro ⟨after, exit, leaves, _⟩
  exact reading_spins _ _ (by decide) _ leaves

end CExamples.Pipe.Reliable.Fully
