import CExamples.IoMultiplexing.Kernel
import CExamples.Word.CString
import CExamples.Word.Frame

/-!
# Reading whole frames from short reads

`read_full` and the frame-reading part of the client loop are the same text in
the poll and the select server.  `receive` is what `read_full` computes from
the answers of one connection, with the calls, the buffer and the other
connections left out; `read_full` refines it.
-/

namespace CExamples.IoMultiplexing

open CExamples.Program
open CExamples.Word

variable {ρ : Type}

/-- One round of the `while(off < n)` loop of `read_full`. -/
def readFullRound (fd : Int) (n : Nat) :
    Nat × List UInt8 → Sys ρ ((Nat × List UInt8) ⊕ (Int × List UInt8))
  | (off, buf) =>
      if off < n then do
        match ← read fd (n - off) with
        | .endOfStream => pure (.inr (0, buf))
        | .interrupted _ => pure (.inl (off, buf))
        | .failed => pure (.inr (-1, buf))
        | .bytes got => do
            let buf ← storeAll buf off got
            pure (.inl (off + got.length, buf))
      else
        pure (.inr (1, buf))

/-- `read_full(fd, buf, n)`: the return code and the buffer.  Every round but
the last uses up an answer of the kernel, which bounds the rounds. -/
def readFull (fd : Int) (buf : List UInt8) (n : Nat) : Sys ρ (Int × List UInt8) := do
  let world ← get
  loop (readFullRound fd n) ((world.connection fd).pending.length + 2) (0, buf)

/-- The result of reading exactly `n` bytes: the return code of `read_full`, or
`none` while it waits; the bytes it got; the answers left; whether SIGINT
arrived. -/
structure Received where
  outcome : Option Int
  bytes : List UInt8
  pending : List ReadReply
  sigint : Bool
  deriving DecidableEq, Repr

/-- Read exactly `n` bytes from the answers of one connection. -/
def receive : Nat → List ReadReply → Received
  | 0, replies => ⟨some 1, [], replies, false⟩
  | _ + 1, [] => ⟨none, [], [], false⟩
  | _ + 1, .endOfStream :: replies => ⟨some 0, [], replies, false⟩
  | _ + 1, .failed :: replies => ⟨some (-1), [], replies, false⟩
  | n + 1, .interrupted sigint :: replies =>
      let rest := receive (n + 1) replies
      { rest with sigint := sigint || rest.sigint }
  | n + 1, .bytes first more :: replies =>
      if more.length ≤ n then
        let rest := receive (n - more.length) replies
        { rest with bytes := first :: more ++ rest.bytes }
      else
        ⟨some 1, (first :: more).take (n + 1), putBack ((first :: more).drop (n + 1)) replies,
          false⟩

/-- Whether the end of the stream was reported. -/
def Received.ended (received : Received) : Bool :=
  received.outcome == some 0

/-- The world after a `receive` from the connection `fd`. -/
def World.after (world : World ρ) (fd : Int) (received : Received) : World ρ :=
  world.consume fd received.pending received.ended received.sigint

@[simp]
theorem World.pending_consume (world : World ρ) (fd : Int) (pending : List ReadReply)
    (ended sigint : Bool) :
    ((world.consume fd pending ended sigint).connection fd).pending = pending := by
  simp [consume]

/-- Using up answers twice is using them up once. -/
theorem World.consume_consume (world : World ρ) (fd : Int) (first second : List ReadReply)
    (ended ended' sigint sigint' : Bool) :
    (world.consume fd first ended sigint).consume fd second ended' sigint' =
      world.consume fd second (ended || ended') (sigint || sigint') := by
  simp [consume, Bool.or_assoc]

/-- Using up nothing changes nothing. -/
theorem World.consume_self (world : World ρ) (fd : Int) :
    world.consume fd (world.connection fd).pending false false = world := by
  simp [consume]

theorem wp_read {fd : Int} {count : Nat} {world : World ρ} (isOpen : fd ∈ world.opened)
    {post : ReadResult → World ρ → Prop} {halt : Halt Call → World ρ → Prop} :
    wp (read fd count) post halt world ↔
      match answerRead count (world.connection fd).pending with
      | none => halt (.blocked (.read fd)) world
      | some (result, pending) =>
          post result (world.consume fd pending result.isEnd result.sigint) := by
  simp only [read, wp_bind, wp_get, isOpen, if_true]
  cases answerRead count (world.connection fd).pending <;> simp

/-- What a program that reads into `buf` from `off` on is left with. -/
def Settles (world : World ρ) (fd : Int) (buf : List UInt8) (off : Nat) (received : Received)
    (post : Int × List UInt8 → World ρ → Prop) (halt : Halt Call → World ρ → Prop) : Prop :=
  match received.outcome with
  | none => halt (.blocked (.read fd)) (world.after fd received)
  | some code => post (code, overwrite buf off received.bytes) (world.after fd received)

/-- Once everything was read the loop ends. -/
theorem wp_loop_readFullRound_done {fd : Int} {n fuel : Nat} {buf : List UInt8}
    {world : World ρ} {post : Int × List UInt8 → World ρ → Prop}
    {halt : Halt Call → World ρ → Prop} (positive : 0 < fuel) :
    wp (loop (readFullRound fd n) fuel (n, buf)) post halt world ↔ post (1, buf) world := by
  obtain ⟨fuel, rfl⟩ := Nat.exists_eq_succ_of_ne_zero (Nat.ne_of_gt positive)
  simp [loop, readFullRound]

/-- One round while bytes are missing: the kernel's answer decides. -/
theorem wp_loop_readFullRound_short {fd : Int} {n fuel off : Nat} {buf : List UInt8}
    {world : World ρ} {post : Int × List UInt8 → World ρ → Prop}
    {halt : Halt Call → World ρ → Prop} {reply : ReadReply} {replies : List ReadReply}
    (isOpen : fd ∈ world.opened) (short : off < n)
    (pending : (world.connection fd).pending = reply :: replies) :
    wp (loop (readFullRound fd n) (fuel + 1) (off, buf)) post halt world ↔
      match reply with
      | .endOfStream => post (0, buf) (world.consume fd replies true false)
      | .failed => post (-1, buf) (world.consume fd replies false false)
      | .interrupted sigint =>
          wp (loop (readFullRound fd n) fuel (off, buf)) post halt
            (world.consume fd replies false sigint)
      | .bytes first more =>
          wp (storeAll buf off ((first :: more).take (n - off)) >>= fun buf =>
              loop (readFullRound fd n) fuel
                (off + ((first :: more).take (n - off)).length, buf)) post halt
            (world.consume fd (putBack ((first :: more).drop (n - off)) replies) false false) := by
  rw [loop, wp_bind, readFullRound, if_pos short, wp_bind, wp_read isOpen]
  cases reply <;> simp [pending, answerRead, ReadResult.isEnd, ReadResult.sigint]

/-- The loop of `read_full` refines `receive`, whatever it has read before. -/
theorem wp_loop_readFullRound {fd : Int} {n : Nat}
    {post : Int × List UInt8 → World ρ → Prop} {halt : Halt Call → World ρ → Prop}
    (replies : List ReadReply) {fuel off : Nat} {buf : List UInt8} {world : World ρ}
    (isOpen : fd ∈ world.opened) (pending : (world.connection fd).pending = replies)
    (enough : replies.length + 2 ≤ fuel) (inside : off ≤ n) (fits : n ≤ buf.length) :
    wp (loop (readFullRound fd n) fuel (off, buf)) post halt world ↔
      Settles world fd buf off (receive (n - off) replies) post halt := by
  induction replies generalizing fuel off buf world with
  | nil =>
      have unchanged : world.consume fd [] false false = world := by
        rw [← pending, World.consume_self]
      obtain ⟨fuel, rfl⟩ : ∃ more, fuel = more + 1 := ⟨fuel - 1, by omega⟩
      rcases Nat.lt_or_eq_of_le inside with short | rfl
      · obtain ⟨left, leftEq⟩ : ∃ left, n - off = left + 1 := ⟨n - off - 1, by omega⟩
        rw [loop, wp_bind, readFullRound, if_pos short, wp_bind, wp_read isOpen, pending, leftEq]
        simp [answerRead, receive, Settles, World.after, Received.ended, unchanged]
      · rw [wp_loop_readFullRound_done (Nat.succ_pos fuel), Nat.sub_self]
        simp [receive, Settles, World.after, Received.ended, unchanged]
  | cons reply replies ih =>
      have unchanged : world.consume fd (reply :: replies) false false = world := by
        rw [← pending, World.consume_self]
      simp only [List.length_cons] at enough
      obtain ⟨fuel, rfl⟩ : ∃ more, fuel = more + 1 := ⟨fuel - 1, by omega⟩
      rcases Nat.lt_or_eq_of_le inside with short | rfl
      · obtain ⟨left, leftEq⟩ : ∃ left, n - off = left + 1 := ⟨n - off - 1, by omega⟩
        rw [wp_loop_readFullRound_short isOpen short pending]
        cases reply with
        | endOfStream => simp [receive, leftEq, Settles, World.after, Received.ended]
        | failed => simp [receive, leftEq, Settles, World.after, Received.ended]
        | interrupted sigint =>
            have rest := @ih fuel off buf (world.consume fd replies false sigint)
              isOpen (by simp) (by omega) inside fits
            rw [leftEq] at rest
            simp only [rest, receive, leftEq, Settles, World.after, World.consume_consume,
              Received.ended, Bool.false_or]
        | bytes first more =>
            simp only [wp_bind]
            rw [leftEq, receive]
            by_cases whole : more.length ≤ left
            · rw [if_pos whole, List.take_of_length_le (by simpa using whole),
                List.drop_of_length_le (by simpa using whole), putBack,
                storeAll_eq_pure _ (by rw [List.length_cons]; omega), wp_pure]
              have rest := @ih fuel (off + (first :: more).length)
                (overwrite buf off (first :: more)) (world.consume fd replies false false)
                isOpen (by simp) (by omega) (by rw [List.length_cons]; omega)
                (by rw [length_overwrite (by rw [List.length_cons]; omega)]; exact fits)
              have leftover : n - (off + (first :: more).length) = left - more.length := by
                rw [List.length_cons]
                omega
              rw [rest, leftover]
              simp only [Settles, World.after, World.consume_consume, Received.ended,
                Bool.false_or,
                overwrite_overwrite _ (show off + (first :: more).length ≤ buf.length by
                  rw [List.length_cons]; omega)]
            · have lengthEq : ((first :: more).take (left + 1)).length = left + 1 := by
                rw [List.length_take, List.length_cons]
                omega
              rw [if_neg whole, storeAll_eq_pure _ (by rw [lengthEq]; omega), wp_pure, lengthEq,
                show off + (left + 1) = n by omega,
                wp_loop_readFullRound_done (by omega)]
              rfl
      · rw [wp_loop_readFullRound_done (Nat.succ_pos fuel), Nat.sub_self]
        simp [receive, Settles, World.after, Received.ended, unchanged]

/-- `read_full` refines `receive`: it returns the code and the bytes that
`receive` computes, waits when `receive` does, and touches no other connection. -/
theorem wp_readFull {fd : Int} {n : Nat} {buf : List UInt8} {world : World ρ}
    {post : Int × List UInt8 → World ρ → Prop} {halt : Halt Call → World ρ → Prop}
    (isOpen : fd ∈ world.opened) (fits : n ≤ buf.length) :
    wp (readFull fd buf n) post halt world ↔
      Settles world fd buf 0 (receive n (world.connection fd).pending) post halt := by
  rw [readFull, wp_bind, wp_get]
  exact wp_loop_readFullRound _ isOpen rfl (Nat.le_refl _) (Nat.zero_le n) fits

end CExamples.IoMultiplexing
