import CExamples.IoMultiplexing.ReadFull

/-!
# Serving one ready client

Both servers read one frame from a ready client: a length byte, then as many
bytes, into a buffer that is terminated and printed as a string.  They differ
only in how they remove a client whose frame cannot be read.  `receiveFrame` is
the outcome as a function of the client's own answers, and a frame is received
exactly when the stream begins with a complete one.
-/

namespace CExamples.IoMultiplexing

open CExamples.Program
open CExamples.Word

variable {ρ : Type}

/-- `MAX_WORD_LEN` -/
def maxWordLen : Nat :=
  256

/-- `min_size` -/
def minSize (a b : Nat) : Nat :=
  if a < b then a else b

/-- The longest payload that leaves room for the terminator. -/
def maxPayload : Nat :=
  minSize (maxWordLen - 1) 255

/-- `word` holds a payload and its terminator; the string is printed for `fd`. -/
def World.speak (world : World ρ) (fd : Int) (word : List UInt8) : World ρ :=
  { world with
    word := word
    connection := Function.update world.connection fd
      { world.connection fd with words := (world.connection fd).words ++ [cString word] }
    trace := .printed (.received fd (cString word)) :: world.trace }

/-- The second half of the frame: the payload, its terminator, and the line
that prints it. -/
def readPayload (fd : Int) (wordLength : Nat) : Sys ρ Bool := do
  let world ← get
  let (code, word) ← readFull fd world.word wordLength
  if code ≤ 0 then do
    print (.disconnected fd)
    pure false
  else do
    let word ← store word wordLength 0
    modify fun world => world.speak fd word
    pure true

/-- Read and print one word of the client `fd`; the result is whether the
client stays.  The length byte is indeterminate until it was read. -/
def readWord (fd : Int) : Sys ρ Bool := do
  modify fun world => world.record (.reading fd)
  let (code, lengthByte) ← readFull fd [0] 1
  if code ≤ 0 then do
    print (.disconnected fd)
    pure false
  else do
    let letter ← load lengthByte 0
    let wordLength := letter.toNat
    if wordLength > maxPayload then do
      print (.oversize fd wordLength)
      pure false
    else
      readPayload fd wordLength

/-- What serving a client comes to. -/
inductive Service
  | waiting
  | dropped
  | word (payload : List UInt8)
  deriving DecidableEq, Repr

/-- Whether the client is dropped. -/
def Service.drops : Service → Bool
  | .dropped => true
  | _ => false

/-- The service of a client and what it leaves of the client's answers. -/
structure Served where
  service : Service
  pending : List ReadReply
  ended : Bool
  sigint : Bool
  deriving DecidableEq, Repr

/-- The payload part of a frame. -/
def receivePayload (size : Nat) (replies : List ReadReply) (sigint : Bool) : Served :=
  let payload := receive size replies
  let service :=
    match payload.outcome with
    | none => .waiting
    | some code => if code ≤ 0 then .dropped else .word payload.bytes
  ⟨service, payload.pending, payload.ended, sigint || payload.sigint⟩

/-- Read one frame from the answers of one connection. -/
def receiveFrame (replies : List ReadReply) : Served :=
  let length := receive 1 replies
  match length.outcome with
  | none => ⟨.waiting, length.pending, length.ended, length.sigint⟩
  | some code =>
      if code ≤ 0 then ⟨.dropped, length.pending, length.ended, length.sigint⟩
      else receivePayload ((length.bytes.headD 0).toNat) length.pending length.sigint

/-! ## The answers of a connection as a byte stream -/

/-- The bytes a connection delivers before its stream ends or fails. -/
def streamOf : List ReadReply → List UInt8
  | [] => []
  | .bytes first more :: replies => first :: more ++ streamOf replies
  | .interrupted _ :: replies => streamOf replies
  | .endOfStream :: _ => []
  | .failed :: _ => []

theorem streamOf_putBack (bytes : List UInt8) (replies : List ReadReply) :
    streamOf (putBack bytes replies) = bytes ++ streamOf replies := by
  cases bytes <;> simp [putBack, streamOf]

/-- A reader that got its `n` bytes took them from the front of the stream;
otherwise the stream ended before them. -/
theorem receive_stream (n : Nat) (replies : List ReadReply) :
    ((receive n replies).outcome = some 1 ∧ (receive n replies).bytes.length = n ∧
        streamOf replies = (receive n replies).bytes ++ streamOf (receive n replies).pending) ∨
      (((receive n replies).outcome = none ∨ (receive n replies).outcome = some 0 ∨
          (receive n replies).outcome = some (-1)) ∧
        (receive n replies).bytes.length < n ∧ streamOf replies = (receive n replies).bytes) := by
  induction replies generalizing n with
  | nil => cases n <;> simp [receive, streamOf]
  | cons reply replies ih =>
      cases n with
      | zero => simp [receive]
      | succ n =>
          cases reply with
          | endOfStream => simp [receive, streamOf]
          | failed => simp [receive, streamOf]
          | interrupted sigint => simpa [receive, streamOf] using ih (n + 1)
          | bytes first more =>
              by_cases whole : more.length ≤ n
              · simp only [receive, if_pos whole, streamOf]
                rcases ih (n - more.length) with ⟨code, lengthEq, split⟩ | ⟨code, short, split⟩
                · refine Or.inl ⟨code, ?_, ?_⟩
                  · rw [List.length_append, lengthEq, List.length_cons]
                    omega
                  · rw [split, List.append_assoc]
                · refine Or.inr ⟨code, ?_, ?_⟩
                  · rw [List.length_append, List.length_cons]
                    omega
                  · rw [split]
              · apply Or.inl
                simp only [receive, if_neg whole, streamOf, streamOf_putBack, true_and]
                constructor
                · rw [List.length_take, List.length_cons]
                  omega
                · rw [← List.append_assoc, List.take_append_drop]

/-- Only a reader that has used up all answers waits. -/
theorem receive_waiting {n : Nat} {replies : List ReadReply}
    (waits : (receive n replies).outcome = none) : (receive n replies).pending = [] := by
  induction replies generalizing n with
  | nil => cases n <;> simp_all [receive]
  | cons reply replies ih =>
      cases n with
      | zero => simp [receive] at waits
      | succ n =>
          cases reply with
          | endOfStream => simp [receive] at waits
          | failed => simp [receive] at waits
          | interrupted sigint => exact ih waits
          | bytes first more =>
              by_cases whole : more.length ≤ n
              · simp only [receive, if_pos whole] at waits ⊢
                exact ih waits
              · simp [receive, if_neg whole] at waits

/-- What a service says about the stream it began with. -/
def Service.Explains (service : Service) (stream rest : List UInt8) : Prop :=
  match service with
  | .word payload =>
      ∃ letter : UInt8, payload.length = letter.toNat ∧ stream = letter :: (payload ++ rest)
  | _ => complete byteLength stream = []

theorem receivePayload_explains (letter : UInt8) (replies : List ReadReply) (sigint : Bool) :
    (receivePayload letter.toNat replies sigint).service.Explains
      (letter :: streamOf replies)
      (streamOf (receivePayload letter.toNat replies sigint).pending) := by
  rcases receive_stream letter.toNat replies with ⟨code, lengthEq, split⟩ | ⟨code, short, split⟩
  · simp only [receivePayload, code, Service.Explains]
    exact ⟨letter, lengthEq, congrArg (letter :: ·) split⟩
  · have incomplete : complete byteLength (letter :: streamOf replies) = [] := by
      rw [split]
      exact complete_cons_of_lt byteLength short
    rcases code with code | code | code <;>
      simp [receivePayload, code, Service.Explains, incomplete]

/-- A frame is received exactly when the stream begins with a complete one. -/
theorem receiveFrame_explains (replies : List ReadReply) :
    (receiveFrame replies).service.Explains (streamOf replies)
      (streamOf (receiveFrame replies).pending) := by
  rcases receive_stream 1 replies with ⟨code, lengthEq, split⟩ | ⟨code, short, split⟩
  · obtain ⟨letter, letterEq⟩ := List.length_eq_one_iff.mp lengthEq
    have begins : streamOf replies = letter :: streamOf (receive 1 replies).pending := by
      rw [split, letterEq]
      rfl
    rw [begins]
    simpa [receiveFrame, code, letterEq] using
      receivePayload_explains letter (receive 1 replies).pending (receive 1 replies).sigint
  · have empty : streamOf replies = [] := by
      rw [split]
      exact List.length_eq_zero_iff.mp (by omega)
    rcases code with code | code | code <;>
      simp [receiveFrame, code, Service.Explains, empty]

/-- A service waits only when all answers were used up. -/
theorem receiveFrame_waiting {replies : List ReadReply}
    (waits : (receiveFrame replies).service = .waiting) : (receiveFrame replies).pending = [] := by
  have payload (size : Nat) (rest : List ReadReply) (sigint : Bool)
      (waits : (receivePayload size rest sigint).service = .waiting) :
      (receivePayload size rest sigint).pending = [] := by
    rcases receive_stream size rest with ⟨code, -, -⟩ | ⟨code | code | code, -, -⟩
    · simp [receivePayload, code] at waits
    · exact receive_waiting code
    · simp [receivePayload, code] at waits
    · simp [receivePayload, code] at waits
  rcases receive_stream 1 replies with ⟨code, -, -⟩ | ⟨code | code | code, -, -⟩
  · simp only [receiveFrame, code] at waits ⊢
    exact payload _ _ _ waits
  · simp only [receiveFrame, code]
    exact receive_waiting code
  · simp [receiveFrame, code] at waits
  · simp [receiveFrame, code] at waits

/-! ## The code refines the service -/

theorem maxPayload_eq : maxPayload = 255 :=
  rfl

/-- The buffer after a payload was stored and terminated. -/
def terminated (buf payload : List UInt8) : List UInt8 :=
  (overwrite buf 0 payload).set payload.length 0

theorem length_terminated {buf payload : List UInt8} (fits : payload.length ≤ buf.length) :
    (terminated buf payload).length = buf.length := by
  rw [terminated, List.length_set, length_overwrite (by omega)]

/-- Whatever the buffer held before, it reads as the payload's string. -/
theorem cString_terminated {buf payload : List UInt8} (room : payload.length < buf.length) :
    cString (terminated buf payload) = cString payload := by
  have rest : buf.drop payload.length ≠ [] := by
    rw [ne_eq, List.drop_eq_nil_iff]
    omega
  obtain ⟨stale, more, split⟩ := List.exists_cons_of_ne_nil rest
  have stored : terminated buf payload = payload ++ 0 :: more := by
    simp [terminated, overwrite, split]
  rw [stored, cString_append_zero]

/-- The world after a client's answers were used up by a service. -/
def World.serve (world : World ρ) (fd : Int) (served : Served) : World ρ :=
  world.consume fd served.pending served.ended served.sigint

/-- How a service ends: the postcondition it has to meet. -/
def Served.Ends (served : Served) (fd : Int) (world : World ρ)
    (post : Bool → World ρ → Prop) (halt : Halt Call → World ρ → Prop) : Prop :=
  match served.service with
  | .waiting => halt (.blocked (.read fd)) (world.serve fd served)
  | .dropped => post false ((world.serve fd served).record (.printed (.disconnected fd)))
  | .word payload =>
      post true ((world.serve fd served).speak fd (terminated world.word payload))

section Refinement

variable {fd : Int} {world : World ρ} {post : Bool → World ρ → Prop}
  {halt : Halt Call → World ρ → Prop}

/-- Reading a payload that leaves room for the terminator refines
`receivePayload`. -/
theorem wp_readPayload {size : Nat} (isOpen : fd ∈ world.opened)
    (room : size < world.word.length) :
    wp (readPayload fd size) post halt world ↔
      (receivePayload size (world.connection fd).pending false).Ends fd world post halt := by
  simp only [readPayload, wp_bind, wp_get]
  rw [wp_readFull isOpen (Nat.le_of_lt room), Settles]
  rcases receive_stream size (world.connection fd).pending with
    ⟨code, lengthEq, -⟩ | ⟨code, -, -⟩
  · have stored : (store (overwrite world.word 0
          (receive size (world.connection fd).pending).bytes) size 0 : Sys ρ (List UInt8)) =
        pure (terminated world.word (receive size (world.connection fd).pending).bytes) := by
      rw [store_eq_pure 0 (by rw [length_overwrite (by omega)]; exact room), terminated,
        lengthEq]
    simp only [code, receivePayload, Served.Ends]
    rw [if_neg (by decide), if_neg (by decide), wp_bind, stored, wp_pure]
    simp [World.after, World.serve]
  · rcases code with code | code | code <;>
      simp [code, receivePayload, Served.Ends, World.after, World.serve, print]

/-- A service that continues one that used up answers without reaching the end
of the stream. -/
theorem receivePayload_ends_consume {size : Nat} {replies : List ReadReply} {sigint : Bool}
    {first : List ReadReply} :
    (receivePayload size replies false).Ends fd (world.consume fd first false sigint) post halt ↔
      (receivePayload size replies sigint).Ends fd world post halt := by
  simp only [Served.Ends, receivePayload, World.serve, World.consume_consume, Bool.false_or]
  rfl

/-- Serving a client refines `receiveFrame`. -/
theorem wp_readWord (isOpen : fd ∈ world.opened) (wordLength : world.word.length = maxWordLen) :
    wp (readWord fd) post halt world ↔
      (receiveFrame (world.connection fd).pending).Ends fd (world.record (.reading fd))
        post halt := by
  have openHere : fd ∈ (world.record (.reading fd)).opened := isOpen
  have samePending : ((world.record (.reading fd)).connection fd).pending =
      (world.connection fd).pending := rfl
  simp only [readWord, wp_bind, wp_modify]
  rw [wp_readFull openHere (Nat.le_refl 1), samePending, Settles]
  rcases receive_stream 1 (world.connection fd).pending with
    ⟨code, lengthEq, -⟩ | ⟨code, -, -⟩
  · obtain ⟨letter, letterEq⟩ := List.length_eq_one_iff.mp lengthEq
    have small : letter.toNat < 256 := letter.toNat_lt
    have loaded : (load (overwrite [0] 0 [letter]) 0 : Sys ρ UInt8) = pure letter :=
      load_eq_pure rfl
    have notOversize : ¬letter.toNat > maxPayload := by
      rw [maxPayload_eq]
      omega
    have frameEq : receiveFrame (world.connection fd).pending =
        receivePayload letter.toNat (receive 1 (world.connection fd).pending).pending
          (receive 1 (world.connection fd).pending).sigint := by
      simp [receiveFrame, code, letterEq]
    have notEnded : (receive 1 (world.connection fd).pending).ended = false := by
      simp [Received.ended, code]
    simp only [code, letterEq, loaded, frameEq, World.after, notEnded]
    rw [if_neg (by decide), wp_bind, wp_pure, if_neg notOversize, wp_readPayload,
      World.pending_consume, receivePayload_ends_consume]
    · exact isOpen
    · exact wordLength.symm ▸ small
  · rcases code with code | code | code <;>
      simp [code, receiveFrame, Served.Ends, World.after, World.serve, print]

end Refinement

end CExamples.IoMultiplexing
