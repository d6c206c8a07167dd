import CExamples.NetworkingFunctions.ListenAccept.Core

/-!
# One client after the other

As long as no write returns `-1`, each client is sent the whole message and closed
before the next one is accepted, and the loop ends only after SIGINT.  A write that
returns `-1` ends the process, so a client that goes away stops the server.
-/

namespace CExamples.NetworkingFunctions.ListenAccept

open CExamples.Program
open CExamples.Word

/-- The bytes were sent to a client. -/
def sentTo (fd : Int) (bytes : List UInt8) : List Event :=
  (bytes.map (Event.sent fd)).reverse

/-- Complete sessions: each client was accepted, was sent the bytes in order, and was
closed, before the next one was accepted. -/
inductive Sessions (bytes : List UInt8) : List Event → Prop
  | none : Sessions bytes []
  | session {earlier : List Event} (fd : Int) (before : Sessions bytes earlier) :
      Sessions bytes (.closed fd :: (sentTo fd bytes ++ .accepted fd :: earlier))

/-- Complete sessions, and perhaps the beginning of one more. -/
inductive Serving (bytes : List UInt8) : List Event → Prop
  | idle {trace : List Event} (sessions : Sessions bytes trace) : Serving bytes trace
  | busy {earlier : List Event} (fd : Int) {sent : List UInt8} (begun : sent <+: bytes)
      (before : Sessions bytes earlier) : Serving bytes (sentTo fd sent ++ .accepted fd :: earlier)

/-- The process has terminated, by returning from `main` or by `exit`. -/
def Terminated : EStateM.Result (Halt Call) World Int → Prop
  | .ok _ _ => True
  | .error (.exit _ _) _ => True
  | _ => False

instance (result : EStateM.Result (Halt Call) World Int) : Decidable (Terminated result) :=
  match result with
  | .ok _ _ => isTrue trivial
  | .error (.exit _ _) _ => isTrue trivial
  | .error (.blocked _) _ => isFalse nofun
  | .error .fault _ => isFalse nofun
  | .error .fuel _ => isFalse nofun

/-- A run in which no client stops the server. -/
structure Resilient (message : List UInt8) (sockfd : Int) (environment : Environment)
    (rounds : Nat) : Prop where
  /-- The clients were served in turn, each with the whole message. -/
  serving : Serving (cString message)
    (finalState (main message sockfd rounds (environment.boot sockfd))).trace
  /-- The process goes on unless SIGINT was delivered. -/
  goesOn : Terminated (main message sockfd rounds (environment.boot sockfd)) →
    (finalState (main message sockfd rounds (environment.boot sockfd))).exitFlag = true
  /-- It accepts as many clients as come. -/
  accepts : environment.incoming.length < rounds → ∀ world,
    main message sockfd rounds (environment.boot sockfd) ≠ .error .fuel world

/-! ## What the calls do -/

@[simp]
theorem openDescriptors_sentTo (fd : Int) (bytes : List UInt8) (trace : List Event) :
    openDescriptors (sentTo fd bytes ++ trace) = openDescriptors trace := by
  induction bytes generalizing trace with
  | nil => rfl
  | cons byte bytes ih =>
      rw [sentTo, List.map_cons, List.reverse_cons, List.append_assoc]
      exact ih (.sent fd byte :: trace)

/-- One more byte. -/
theorem sentTo_concat (fd : Int) (bytes : List UInt8) (byte : UInt8) :
    sentTo fd (bytes ++ [byte]) = .sent fd byte :: sentTo fd bytes := by
  simp [sentTo]

/-- Between sessions no client is connected. -/
theorem Sessions.opened {bytes : List UInt8} {trace : List Event}
    (sessions : Sessions bytes trace) : openDescriptors trace = [] := by
  induction sessions with
  | none => rfl
  | session fd before ih => simp [openDescriptors, ih]

/-- How a run may halt: after sessions as described, and by `exit` exactly when a
write returned `-1`. -/
structure Halted (bytes : List UInt8) (reason : Halt Call) (world : World) : Prop where
  serving : Serving bytes world.trace
  notFault : reason ≠ .fault
  refused : world.refused ≠ [] ↔ ∃ status message, reason = .exit status message

/-- The server is at the head of its loop. -/
structure Idle (sockfd : Int) (bytes : List UInt8) (world : World) : Prop where
  sessions : Sessions bytes world.trace
  listening : world.listening = some sockfd
  accepted : world.refused = []

/-- The server has sent the first `i` bytes to the client `fd`, and `accept` will
answer with `left`. -/
structure Busy (sockfd : Int) (left : List AcceptReply) (bytes : List UInt8) (fd : Int) (i : Nat)
    (world : World) : Prop where
  trace : ∃ earlier, world.trace = sentTo fd (bytes.take i) ++ .accepted fd :: earlier ∧
    Sessions bytes earlier
  listening : world.listening = some sockfd
  incoming : world.incoming = left
  apart : sockfd ≠ fd
  accepted : world.refused = []

variable {sockfd fd : Int} {left : List AcceptReply} {bytes message : List UInt8}
  {world : World} {i : Nat}

namespace Idle

theorem halted (idle : Idle sockfd bytes world) {reason : Halt Call}
    (notFault : reason ≠ .fault) (notExit : ∀ status message, reason ≠ .exit status message) :
    Halted bytes reason world where
  serving := .idle idle.sessions
  notFault := notFault
  refused := by
    refine iff_of_false (fun refused => refused idle.accepted) ?_
    rintro ⟨status, message, exited⟩
    exact notExit status message exited

theorem of_eq (idle : Idle sockfd bytes world) {next : World} (trace : next.trace = world.trace)
    (listening : next.listening = world.listening) (refused : next.refused = world.refused) :
    Idle sockfd bytes next where
  sessions := trace ▸ idle.sessions
  listening := listening.trans idle.listening
  accepted := refused.trans idle.accepted

end Idle

namespace Busy

theorem isOpen (busy : Busy sockfd left bytes fd i world) : fd ∈ world.opened := by
  obtain ⟨earlier, traceEq, -⟩ := busy.trace
  rw [World.opened, traceEq, openDescriptors_sentTo]
  exact List.mem_cons_self

theorem serving (busy : Busy sockfd left bytes fd i world) : Serving bytes world.trace := by
  obtain ⟨earlier, traceEq, sessions⟩ := busy.trace
  rw [traceEq]
  exact .busy fd (List.take_prefix i bytes) sessions

theorem of_eq (busy : Busy sockfd left bytes fd i world) {next : World}
    (trace : next.trace = world.trace) (listening : next.listening = world.listening)
    (incoming : next.incoming = world.incoming) (refused : next.refused = world.refused) :
    Busy sockfd left bytes fd i next where
  trace := trace ▸ busy.trace
  listening := listening.trans busy.listening
  incoming := incoming.trans busy.incoming
  apart := busy.apart
  accepted := refused.trans busy.accepted

end Busy

/-- SIGINT may arrive at any time. -/
theorem wp_deliver {inv : World → Prop} {halt : Halt Call → World → Prop} (holds : inv world)
    (stable : ∀ sigint signals, inv { world.interrupt sigint with signals := signals }) :
    wp deliver (fun _ => inv) halt world := by
  simp only [deliver, wp_bind, wp_get]
  cases world.signals with
  | nil => exact holds
  | cons sigint signals => exact stable sigint signals

/-- The letters before the terminator can be read. -/
theorem load_message (inside : i < (cString message).length) :
    (load message i : Server UInt8) = pure (cString message)[i] := by
  apply load_eq_pure
  have front : cString message <+: message := List.takeWhile_prefix _
  rw [front.getElem inside]
  exact List.getElem?_eq_getElem (Nat.lt_of_lt_of_le inside front.length_le)

namespace Busy

/-- A byte was taken. -/
theorem sent (busy : Busy sockfd left bytes fd i world) (inside : i < bytes.length)
    (replies : List WriteReply) :
    Busy sockfd left bytes fd (i + 1)
      { world.consume fd replies with trace := .sent fd bytes[i] :: world.trace } where
  trace := by
    obtain ⟨earlier, traceEq, sessions⟩ := busy.trace
    refine ⟨earlier, ?_, sessions⟩
    rw [List.take_succ_eq_append_getElem inside, sentTo_concat, traceEq]
    rfl
  listening := busy.listening
  incoming := busy.incoming
  apart := busy.apart
  accepted := busy.accepted

/-- A write that waits. -/
theorem waiting (busy : Busy sockfd left bytes fd i world) :
    Halted bytes (.blocked (.write fd)) world where
  serving := busy.serving
  notFault := nofun
  refused := by
    refine iff_of_false (fun refused => refused busy.accepted) ?_
    rintro ⟨status, message, exited⟩
    cases exited

/-- A write that returned `-1`. -/
theorem refused (busy : Busy sockfd left bytes fd i world) {next : World}
    (trace : next.trace = world.trace) (refused : next.refused = fd :: world.refused) :
    Halted bytes (.exit 1 "write") next where
  serving := trace ▸ busy.serving
  notFault := nofun
  refused := by
    refine iff_of_true ?_ ⟨1, "write", rfl⟩
    rw [refused]
    exact List.cons_ne_nil _ _

end Busy

/-- One byte is sent, or the process waits or ends. -/
theorem wp_sendByte (busy : Busy sockfd left (cString message) fd i world)
    (inside : i < (cString message).length) :
    wp (sendByte fd message i) (fun _ next => Busy sockfd left (cString message) fd (i + 1) next)
      (fun reason next => Halted (cString message) reason next ∧ reason ≠ .fuel) world := by
  rw [sendByte, load_message inside, pure_bind]
  simp only [write, wp_bind, wp_get, if_pos busy.isOpen]
  cases world.connection fd with
  | nil => exact ⟨busy.waiting, by simp⟩
  | cons reply replies =>
      cases reply with
      | written =>
          have sent := busy.sent inside replies
          simp only [wp_bind, wp_set, wp_pure]
          rw [if_neg (by decide)]
          exact wp_deliver sent fun _ _ => sent.of_eq rfl rfl rfl rfl
      | interrupted sigint => exact ⟨busy.refused rfl rfl, by simp⟩
      | failed => exact ⟨busy.refused rfl rfl, by simp⟩

/-- The message is sent, and the client is closed. -/
theorem wp_serve (busy : Busy sockfd left (cString message) fd 0 world) :
    wp (do
        handleConnection fd message
        socketClose fd)
      (fun _ next => Idle sockfd (cString message) next ∧ next.incoming = left)
      (fun reason next => Halted (cString message) reason next ∧ reason ≠ .fuel) world := by
  rw [wp_bind, handleConnection]
  have sends (i : Nat) (_ : Unit) (next : World) (_ : 0 ≤ i)
      (inside : i < 0 + (cString message).length)
      (busy : Busy sockfd left (cString message) fd i next) :
      wp (sendByte fd message i) (fun _ next => Busy sockfd left (cString message) fd (i + 1) next)
        (fun reason next => Halted (cString message) reason next ∧ reason ≠ .fuel) next :=
    wp_sendByte busy (by omega)
  apply wp_conseq (wp_forRange _ 0 busy sends)
  rintro - next busy
  rw [Nat.zero_add] at busy
  obtain ⟨earlier, traceEq, sessions⟩ := busy.trace
  have notListening : next.listening ≠ some fd := by
    rw [busy.listening]
    exact fun same => busy.apart (Option.some.inj same)
  simp only [socketClose, close, wp_bind, wp_get, if_neg notListening, if_pos busy.isOpen, wp_set,
    wp_pure, if_true]
  rw [List.take_length] at traceEq
  refine ⟨⟨?_, busy.listening, busy.accepted⟩, busy.incoming⟩
  rw [traceEq]
  exact .session fd sessions

/-! ## The accept loop -/

theorem wp_readExitFlag (idle : Idle sockfd bytes world) {halt : Halt Call → World → Prop} :
    wp readExitFlag
      (fun flag next => Idle sockfd bytes next ∧ next.incoming = world.incoming ∧
        next.exitFlag = flag) halt world := by
  rw [readExitFlag, wp_bind]
  have delivered := @wp_deliver world
    (fun next => Idle sockfd bytes next ∧ next.incoming = world.incoming) halt ⟨idle, rfl⟩
    fun _ _ => ⟨idle.of_eq rfl rfl rfl, rfl⟩
  apply wp_conseq delivered
  rintro - next ⟨idle, incoming⟩
  exact ⟨idle, incoming, rfl⟩

/-- A client is accepted, or `accept` returns `-1` or waits. -/
theorem wp_socketAcceptConnection (idle : Idle sockfd bytes world) :
    wp socketAcceptConnection
      (fun client next => ∃ left, left.length < world.incoming.length ∧
        if client = -1 then Idle sockfd bytes next ∧ next.incoming = left
        else Busy sockfd left bytes client 0 next)
      (fun reason next => Halted bytes reason next ∧ reason ≠ .fuel) world := by
  have waits : Halted bytes (.blocked .accept) world := idle.halted (by simp) (by simp)
  simp only [socketAcceptConnection, accept, wp_bind, wp_get]
  cases incomingEq : world.incoming with
  | nil => exact ⟨waits, by simp⟩
  | cons reply left =>
      have fewer : left.length < (reply :: left).length := Nat.lt_succ_self _
      cases reply with
      | returned fd replies =>
          by_cases acceptable : world.Acceptable fd
          · obtain ⟨notNegative, notListening, closed⟩ := acceptable
            have valid : fd ≠ -1 := by omega
            have apart : sockfd ≠ fd := by
              rintro rfl
              exact notListening idle.listening
            simp only [World.Acceptable, notNegative, ne_eq, notListening, not_false_eq_true,
              closed, and_self, if_true, wp_bind, wp_set, wp_pure]
            refine ⟨left, fewer, ?_⟩
            rw [if_neg valid]
            exact ⟨⟨world.trace, rfl, idle.sessions⟩, idle.listening, rfl, apart, idle.accepted⟩
          · simp only [if_neg acceptable]
            exact ⟨waits, by simp⟩
      | interrupted sigint => exact ⟨left, fewer, idle.of_eq rfl rfl rfl, rfl⟩
      | failed => exact ⟨left, fewer, idle.of_eq rfl rfl rfl, rfl⟩

/-- A round serves one client, or none, or ends the loop after SIGINT. -/
theorem round_main :
    Round (mainRound message) (fun _ next => Idle sockfd (cString message) next)
      (fun _ next => next.incoming.length)
      (fun _ next => Idle sockfd (cString message) next ∧ next.exitFlag = true)
      (fun reason next => Halted (cString message) reason next ∧ reason ≠ .fuel) := by
  rintro ⟨⟩ world idle
  rw [mainRound]
  apply wp_seq (wp_readExitFlag idle)
  rintro (_ | _) next ⟨idle, incoming, flag⟩
  · rw [if_neg Bool.false_ne_true]
    apply wp_seq (wp_socketAcceptConnection idle)
    rintro client next ⟨left, fewer, outcome⟩
    rw [incoming] at fewer
    by_cases failed : client = -1
    · rw [if_pos failed] at outcome
      obtain ⟨idle, rfl⟩ := outcome
      rw [if_pos failed]
      apply wp_seq (wp_readExitFlag idle)
      rintro (_ | _) last ⟨idle, incoming, flag⟩
      · rw [← incoming] at fewer
        exact ⟨idle, fewer⟩
      · exact ⟨idle, flag⟩
    · rw [if_neg failed] at outcome
      rw [if_neg failed]
      have serves := wp_serve outcome
      rw [wp_bind] at serves ⊢
      apply wp_conseq serves
      rintro - next closes
      apply wp_seq closes
      rintro - next ⟨idle, rfl⟩
      exact ⟨idle, fewer⟩
  · exact ⟨idle, flag⟩

/-! ## Whole runs -/

/-- What a run comes to, however it ends. -/
theorem wp_main (message : List UInt8) (sockfd : Int) (environment : Environment) (rounds : Nat) :
    wp (main message sockfd rounds)
      (fun _ next => Serving (cString message) next.trace ∧ next.exitFlag = true)
      (fun reason next => Halted (cString message) reason next ∧
        (environment.incoming.length < rounds → reason ≠ .fuel))
      (environment.boot sockfd) := by
  have idle : Idle sockfd (cString message) (environment.boot sockfd) := ⟨.none, rfl, rfl⟩
  have loops : wp (loop (mainRound message) rounds ())
      (fun _ next => Idle sockfd (cString message) next ∧ next.exitFlag = true)
      (fun reason next => Halted (cString message) reason next ∧
        (environment.incoming.length < rounds → reason ≠ .fuel)) (environment.boot sockfd) := by
    by_cases enough : environment.incoming.length < rounds
    · exact wp_mono (wp_loop round_main idle enough) (fun _ _ ended => ended)
        fun _ _ halted => ⟨halted.1, fun _ => halted.2⟩
    · have keeps (locals : Unit) (next : World) (idle : Idle sockfd (cString message) next) :
          wp (mainRound message locals)
            (Sum.elim (fun _ next => Idle sockfd (cString message) next)
              fun _ next => Idle sockfd (cString message) next ∧ next.exitFlag = true)
            (fun reason next => Halted (cString message) reason next ∧
              (environment.incoming.length < rounds → reason ≠ .fuel)) next := by
        refine wp_mono (round_main locals next idle) ?_ ?_
        · rintro (locals | locals) last ended
          · exact ended.1
          · exact ended
        · exact fun _ _ halted => ⟨halted.1, fun more => absurd more enough⟩
      apply wp_loop_partial keeps _ rounds idle
      intro locals next idle
      exact ⟨idle.halted nofun nofun, fun more => absurd more enough⟩
  rw [main]
  apply wp_seq loops
  rintro - next ⟨idle, flag⟩
  simp only [socketClose, close, wp_bind, wp_get, if_pos idle.listening, wp_set, wp_pure, if_true]
  exact ⟨.idle idle.sessions, flag⟩

/-- A write to a client returned `-1` although SIGINT had not been delivered. -/
def Broken (world : World) : Prop :=
  world.exitFlag = false ∧ world.refused ≠ []

instance (world : World) : Decidable (Broken world) :=
  inferInstanceAs (Decidable (_ ∧ _))

/-- The first client closes its connection after one byte. -/
def leaving : Environment where
  signals := []
  incoming := [.returned 5 [.written, .failed], .returned 6 [.written, .written]]

end CExamples.NetworkingFunctions.ListenAccept
