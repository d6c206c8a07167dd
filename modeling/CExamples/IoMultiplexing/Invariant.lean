import CExamples.IoMultiplexing.ReadWord
import Mathlib.Data.List.Nodup
import Mathlib.Data.List.Perm.Subperm

/-!
# What every system call of a server preserves

`World.Sound` relates the kernel's view to the list of client descriptors that
a server keeps: they are the open connections, each was closed at most once,
and each open connection is between two frames.  Every call preserves it, with
one descriptor more after `accept` and one less after `close`; a server that
halts in the middle of a frame still has only whole words printed.
-/

namespace CExamples.IoMultiplexing

open CExamples.Program
open CExamples.Word

variable {ρ : Type}

namespace Connection

/-- The words of the complete frames in everything that arrives, as they are
printed. -/
def decoded (connection : Connection) : List (List UInt8) :=
  (complete byteLength (streamOf connection.arrived)).map cString

/-- The server stands between two frames of the connection. -/
def AtBoundary (connection : Connection) : Prop :=
  connection.ended = false ∧
    connection.words ++ (complete byteLength (streamOf connection.pending)).map cString =
      connection.decoded

/-- Only words of the connection were printed, in order, and all of them if the
end of the stream was reported. -/
def Settled (connection : Connection) : Prop :=
  connection.words <+: connection.decoded ∧
    (connection.ended = true → connection.words = connection.decoded)

/-- Everything that arrived was read: whole frames, whose words were printed, and
the beginning of one more. -/
def MidFrame (connection : Connection) : Prop :=
  connection.pending = [] ∧ connection.ended = false ∧
    ∃ words rest, streamOf connection.arrived = frames byteLength words ++ rest ∧
      complete byteLength rest = [] ∧ connection.words = words.map cString

theorem AtBoundary.settled {connection : Connection} (boundary : connection.AtBoundary) :
    connection.Settled := by
  obtain ⟨notEnded, split⟩ := boundary
  refine ⟨⟨_, split⟩, ?_⟩
  simp [notEnded]

theorem fresh_atBoundary (replies : List ReadReply) : (fresh replies).AtBoundary :=
  ⟨rfl, rfl⟩

/-- The connection after a service used up some of its answers. -/
def serve (connection : Connection) (served : Served) : Connection :=
  { connection with
    pending := served.pending
    ended := connection.ended || served.ended }

/-- The connection after a word was printed for it. -/
def speak (connection : Connection) (word : List UInt8) : Connection :=
  { connection with words := connection.words ++ [cString word] }

end Connection

/-- The end of the stream drops the client. -/
theorem receiveFrame_ended {replies : List ReadReply}
    (ended : (receiveFrame replies).ended = true) :
    (receiveFrame replies).service = .dropped := by
  rcases receive_stream 1 replies with ⟨code, -, -⟩ | ⟨code | code | code, -, -⟩
  · simp only [receiveFrame, code] at ended ⊢
    generalize (receive 1 replies).bytes.headD 0 = letter at ended ⊢
    rcases receive_stream letter.toNat (receive 1 replies).pending with
      ⟨code, -, -⟩ | ⟨code | code | code, -, -⟩ <;>
      simp_all [receivePayload, Received.ended]
  all_goals simp_all [receiveFrame, Received.ended]

namespace Connection.AtBoundary

variable {connection : Connection}

/-- A client whose frame cannot be read has sent no further word. -/
theorem dropped (boundary : connection.AtBoundary)
    (drops : (receiveFrame connection.pending).service = .dropped) :
    (connection.serve (receiveFrame connection.pending)).Settled := by
  have explains := receiveFrame_explains connection.pending
  rw [drops] at explains
  have all : connection.words = connection.decoded := by
    rw [← boundary.2, show complete byteLength (streamOf connection.pending) = [] from explains,
      List.map_nil, List.append_nil]
  exact ⟨all ▸ List.prefix_refl _, fun _ => all⟩

/-- A client that waits has not reached the end of its stream. -/
theorem waiting (boundary : connection.AtBoundary)
    (waits : (receiveFrame connection.pending).service = .waiting) :
    (connection.serve (receiveFrame connection.pending)).Settled := by
  have notEnded : (receiveFrame connection.pending).ended ≠ true := by
    intro ended
    rw [receiveFrame_ended ended] at waits
    exact absurd waits nofun
  refine ⟨boundary.settled.1, ?_⟩
  simp [serve, boundary.1, notEnded]

/-- A client that waits has sent the beginning of a frame and nothing more. -/
theorem midFrame (boundary : connection.AtBoundary)
    (waits : (receiveFrame connection.pending).service = .waiting) :
    (connection.serve (receiveFrame connection.pending)).MidFrame := by
  have notEnded : (receiveFrame connection.pending).ended ≠ true := by
    intro ended
    rw [receiveFrame_ended ended] at waits
    exact absurd waits nofun
  have explains := receiveFrame_explains connection.pending
  rw [waits] at explains
  have printed : connection.words = connection.decoded := by
    rw [← boundary.2, show complete byteLength (streamOf connection.pending) = [] from explains,
      List.map_nil, List.append_nil]
  obtain ⟨rest, split, unfinished⟩ :=
    exists_unfinished byteLength byteLength_encode_decode (streamOf connection.arrived)
  refine ⟨receiveFrame_waiting waits, ?_, _, rest, split, unfinished, printed⟩
  simp [serve, boundary.1, notEnded]

/-- A word that was read is the next one of the connection. -/
theorem word (boundary : connection.AtBoundary) {payload : List UInt8}
    (got : (receiveFrame connection.pending).service = .word payload) :
    payload.length < maxWordLen ∧
      ((connection.serve (receiveFrame connection.pending)).speak payload).AtBoundary := by
  have notEnded : (receiveFrame connection.pending).ended ≠ true := by
    intro ended
    rw [receiveFrame_ended ended] at got
    exact absurd got nofun
  have explains := receiveFrame_explains connection.pending
  rw [got] at explains
  obtain ⟨letter, lengthEq, stream⟩ := explains
  refine ⟨lengthEq ▸ letter.toNat_lt, ?_, ?_⟩
  · simp [serve, speak, boundary.1, notEnded]
  · have split := boundary.2
    rw [stream, complete_cons_append byteLength lengthEq] at split
    simpa [serve, speak, decoded] using split

end Connection.AtBoundary

/-! ## The trace -/

/-- `fd` is the highest of `fds`. -/
def Highest (fd : Int) (fds : List Int) : Prop :=
  fd ∈ fds ∧ ∀ other ∈ fds, other ≤ fd

/-- Looking at one more descriptor. -/
theorem Highest.concat {maxFd fd : Int} {fds : List Int} (highest : Highest maxFd fds) :
    Highest (if fd > maxFd then fd else maxFd) (fds ++ [fd]) := by
  constructor
  · split
    · simp
    · exact List.mem_append_left _ highest.1
  · intro other member
    rcases List.mem_append.mp member with before | last
    · have bound := highest.2 other before
      split <;> omega
    · rw [List.mem_singleton.mp last]
      split <;> omega

/-- Lines that may be printed: no stored descriptor is too large for `select`,
neither when it is stored nor later. -/
def Expected : Line → Prop
  | .established fd => fd < fdSetsize
  | .clientOutOfRange _ => False
  | _ => True

/-- An event that may follow the trace `earlier`: only an open descriptor is
closed, `select` is called with the highest descriptor plus one, and only an
expected line is printed. -/
def Legitimate (sockfd : Int) (earlier : List Event) : Event → Prop
  | .accepted _ => True
  | .closed fd => fd ∈ openDescriptors earlier
  | .reading _ => True
  | .selecting nfds => Highest (nfds - 1) (sockfd :: openDescriptors earlier)
  | .printed line => Expected line

/-- Every event of the trace was legitimate when it happened. -/
def Orderly (sockfd : Int) : List Event → Prop
  | [] => True
  | event :: earlier => Legitimate sockfd earlier event ∧ Orderly sockfd earlier

namespace Orderly

variable {sockfd : Int} {trace : List Event}

theorem closedOnce (orderly : Orderly sockfd trace) : ClosedOnce trace := by
  induction trace with
  | nil => trivial
  | cons event earlier ih =>
      cases event with
      | closed fd => exact ⟨orderly.1, ih orderly.2⟩
      | _ => exact ih orderly.2

/-- Every event has its own past. -/
theorem legitimate {later earlier : List Event} {event : Event}
    (orderly : Orderly sockfd (later ++ event :: earlier)) :
    Legitimate sockfd earlier event := by
  induction later with
  | nil => exact orderly.1
  | cons _ later ih => exact ih orderly.2

theorem expected (orderly : Orderly sockfd trace) {line : Line} (printed : .printed line ∈ trace) :
    Expected line := by
  obtain ⟨later, earlier, rfl⟩ := List.append_of_mem printed
  exact orderly.legitimate

end Orderly

/-! ## The invariant -/

/-- The words of the connections are those in the printed lines. -/
structure World.Transcribed (world : World ρ) : Prop where
  lines : ∀ fd ∈ world.opened, (world.connection fd).words = spoken fd world.trace
  finished : world.dropped.map Connection.words = spokenBefore world.trace

/-- Every line printed so far is due to a frame of its own connection. -/
structure World.Decoded (world : World ρ) : Prop where
  settled : ∀ connection ∈ world.connections, connection.Settled
  transcribed : world.Transcribed

theorem World.Transcribed.transcript {world : World ρ} (transcribed : world.Transcribed) :
    world.connections.map Connection.words = transcript world.trace := by
  have lines : world.opened.map (fun fd => (world.connection fd).words) =
      world.opened.map (fun fd => spoken fd world.trace) :=
    List.map_congr_left transcribed.lines
  rw [connections, List.map_append, List.map_map, transcribed.finished]
  exact congrArg (· ++ spokenBefore world.trace) lines

/-- The server's descriptors are the kernel's open connections. -/
structure World.Sound (world : World ρ) (sockfd : Int) (fds : List Int) : Prop where
  perm : fds.Perm world.opened
  nodup : fds.Nodup
  range : ∀ fd ∈ fds, 0 ≤ fd ∧ fd < 2147483648
  listening : world.listening = some sockfd
  apart : sockfd ∉ fds
  orderly : Orderly sockfd world.trace
  word : world.word.length = maxWordLen
  boundary : ∀ fd ∈ fds, (world.connection fd).AtBoundary
  settled : ∀ connection ∈ world.dropped, connection.Settled
  transcribed : world.Transcribed

/-- How a server may halt: not by an index outside an array nor in an endless
loop, after an orderly trace, and with only whole words printed. -/
structure Halted (sockfd : Int) (reason : Halt Call) (world : World ρ) : Prop where
  notFault : reason ≠ .fault
  notFuel : reason ≠ .fuel
  orderly : Orderly sockfd world.trace
  decoded : world.Decoded

/-- The server waits for the rest of a frame of `fd`, and has taken no part of a frame
from any other client. -/
structure World.HeldUp (world : World ρ) (fd : Int) : Prop where
  isOpen : fd ∈ world.opened
  midFrame : (world.connection fd).MidFrame
  others : ∀ other ∈ world.opened, other ≠ fd → (world.connection other).AtBoundary

/-- How a server may halt: as described, and in a `read` only when it is held
up. -/
structure Stopped (sockfd : Int) (reason : Halt Call) (world : World ρ) : Prop
    extends Halted sockfd reason world where
  heldUp : ∀ fd, reason = .blocked (.read fd) → world.HeldUp fd

/-- Closing `fd` now leaves the server with the clients `fds`. -/
def World.Closable (world : World ρ) (sockfd fd : Int) (fds : List Int) : Prop :=
  fd ∈ world.opened ∧ world.listening ≠ some fd ∧ (world.closing fd).Sound sockfd fds

namespace World.Sound

variable {world : World ρ} {sockfd : Int} {fds : List Int}

theorem mem_opened (sound : world.Sound sockfd fds) {fd : Int} :
    fd ∈ world.opened ↔ fd ∈ fds :=
  sound.perm.mem_iff.symm

theorem reorder (sound : world.Sound sockfd fds) {fds' : List Int} (perm : fds'.Perm fds) :
    world.Sound sockfd fds' where
  perm := perm.trans sound.perm
  nodup := perm.nodup_iff.mpr sound.nodup
  range fd member := sound.range fd (perm.mem_iff.mp member)
  listening := sound.listening
  apart member := sound.apart (perm.mem_iff.mp member)
  orderly := sound.orderly
  word := sound.word
  boundary fd member := sound.boundary fd (perm.mem_iff.mp member)
  settled := sound.settled
  transcribed := sound.transcribed

theorem notListening (sound : world.Sound sockfd fds) {fd : Int} (member : fd ∈ fds) :
    world.listening ≠ some fd := by
  intro listening
  rw [sound.listening] at listening
  exact sound.apart (Option.some.inj listening ▸ member)

/-- Everything printed so far is settled. -/
theorem decoded (sound : world.Sound sockfd fds) : world.Decoded := by
  refine ⟨?_, sound.transcribed⟩
  intro connection member
  rcases List.mem_append.mp member with isOpen | dropped
  · obtain ⟨fd, fdOpen, rfl⟩ := List.mem_map.mp isOpen
    exact (sound.boundary fd (sound.mem_opened.mp fdOpen)).settled
  · exact sound.settled connection dropped

theorem halted_exit (sound : world.Sound sockfd fds) (status : Nat) (message : String) :
    Stopped sockfd (.exit status message) world :=
  ⟨⟨nofun, nofun, sound.orderly, sound.decoded⟩, nofun⟩

theorem halted_blocked (sound : world.Sound sockfd fds) {call : Call}
    (notRead : ∀ fd, call ≠ .read fd) : Stopped sockfd (.blocked call) world :=
  ⟨⟨nofun, nofun, sound.orderly, sound.decoded⟩, fun fd blocked =>
    absurd (Halt.blocked.inj blocked) (notRead fd)⟩

/-- Distinct descriptors are few. -/
theorem length_le (sound : world.Sound sockfd fds) : fds.length ≤ 2147483648 := by
  have distinct : (fds.map Int.toNat).Nodup := by
    refine List.Nodup.map_on ?_ sound.nodup
    intro first firstMem second secondMem equal
    have firstRange := sound.range first firstMem
    have secondRange := sound.range second secondMem
    omega
  have bounded : fds.map Int.toNat ⊆ List.range 2147483648 := by
    intro fd member
    obtain ⟨fd, fdMem, rfl⟩ := List.mem_map.mp member
    have fdRange := sound.range fd fdMem
    exact List.mem_range.mpr (by omega)
  have count := (distinct.subperm bounded).length_le
  rwa [List.length_map, List.length_range] at count

/-- The calls that leave descriptors and connections alone. -/
theorem of_eq (sound : world.Sound sockfd fds) {world' : World ρ}
    (listening : world'.listening = world.listening)
    (connection : world'.connection = world.connection)
    (dropped : world'.dropped = world.dropped) (word : world'.word = world.word)
    (trace : world'.trace = world.trace) : world'.Sound sockfd fds where
  perm := by rw [World.opened, trace]; exact sound.perm
  nodup := sound.nodup
  range := sound.range
  listening := listening.trans sound.listening
  apart := sound.apart
  orderly := trace ▸ sound.orderly
  word := word ▸ sound.word
  boundary := connection ▸ sound.boundary
  settled := dropped ▸ sound.settled
  transcribed := by
    constructor
    · rw [World.opened, trace, connection]
      exact sound.transcribed.lines
    · rw [trace, dropped]
      exact sound.transcribed.finished

/-- Recording a legitimate event that opens and closes nothing and prints no
word. -/
theorem record (sound : world.Sound sockfd fds) {event : Event}
    (legitimate : Legitimate sockfd world.trace event)
    (opened : (world.record event).opened = world.opened)
    (silent : ∀ fd, spoken fd (event :: world.trace) = spoken fd world.trace)
    (finished : spokenBefore (event :: world.trace) = spokenBefore world.trace) :
    (world.record event).Sound sockfd fds where
  perm := opened ▸ sound.perm
  nodup := sound.nodup
  range := sound.range
  listening := sound.listening
  apart := sound.apart
  orderly := ⟨legitimate, sound.orderly⟩
  word := sound.word
  boundary := sound.boundary
  settled := sound.settled
  transcribed := by
    refine ⟨?_, sound.transcribed.finished.trans finished.symm⟩
    intro fd member
    exact (sound.transcribed.lines fd (opened ▸ member)).trans (silent fd).symm

theorem reading (sound : world.Sound sockfd fds) (fd : Int) :
    (world.record (.reading fd)).Sound sockfd fds :=
  sound.record trivial rfl (fun _ => rfl) rfl

theorem printed (sound : world.Sound sockfd fds) {line : Line} (expected : Expected line)
    (silent : ∀ fd, spoken fd (.printed line :: world.trace) = spoken fd world.trace) :
    (world.record (.printed line)).Sound sockfd fds :=
  sound.record expected rfl silent rfl

/-- `select` is called with the highest descriptor plus one. -/
theorem selecting (sound : world.Sound sockfd fds) {maxFd : Int}
    (highest : Highest maxFd (sockfd :: fds)) :
    (world.record (.selecting (maxFd + 1))).Sound sockfd fds := by
  refine sound.record ?_ rfl (fun _ => rfl) rfl
  have perm := sound.perm.cons sockfd
  rw [Legitimate, Int.add_sub_cancel]
  exact ⟨perm.mem_iff.mp highest.1, fun other member =>
    highest.2 other (perm.mem_iff.mpr member)⟩

/-- A new connection has a descriptor of its own. -/
theorem established (sound : world.Sound sockfd fds) {fd : Int} (replies : List ReadReply)
    (acceptable : world.Acceptable fd) :
    (world.established fd replies).Sound sockfd (fd :: fds) where
  perm := sound.perm.cons fd
  nodup := List.nodup_cons.mpr ⟨mt sound.mem_opened.mpr acceptable.2.2.2, sound.nodup⟩
  range := by
    rintro other (_ | ⟨_, member⟩)
    · exact ⟨acceptable.1, acceptable.2.1⟩
    · exact sound.range other member
  listening := sound.listening
  apart := by
    rintro (_ | ⟨_, member⟩)
    · exact acceptable.2.2.1 sound.listening
    · exact sound.apart member
  orderly := ⟨trivial, sound.orderly⟩
  word := sound.word
  boundary := by
    intro other member
    by_cases same : other = fd
    · subst same
      simpa [World.established] using Connection.fresh_atBoundary replies
    · simpa [World.established, same] using sound.boundary other (List.mem_of_ne_of_mem same member)
  settled := sound.settled
  transcribed := by
    refine ⟨?_, sound.transcribed.finished⟩
    intro other member
    by_cases same : other = fd
    · subst same
      simp [World.established, Connection.fresh, spoken]
    · have isOpen : other ∈ world.opened := List.mem_of_ne_of_mem same member
      simpa [World.established, spoken, same, Ne.symm same] using
        sound.transcribed.lines other isOpen

theorem closing {fd : Int} (sound : world.Sound sockfd (fd :: fds)) :
    (world.closing fd).Sound sockfd fds where
  perm := by
    have perm := sound.perm.erase fd
    rwa [List.erase_cons_head] at perm
  nodup := (List.nodup_cons.mp sound.nodup).2
  range other member := sound.range other (List.mem_cons_of_mem fd member)
  listening := sound.listening
  apart member := sound.apart (List.mem_cons_of_mem fd member)
  orderly := ⟨sound.mem_opened.mpr List.mem_cons_self, sound.orderly⟩
  word := sound.word
  boundary other member := sound.boundary other (List.mem_cons_of_mem fd member)
  settled := by
    rintro connection (_ | ⟨_, member⟩)
    · exact (sound.boundary fd List.mem_cons_self).settled
    · exact sound.settled connection member
  transcribed := by
    constructor
    · intro other member
      exact sound.transcribed.lines other (List.mem_of_mem_erase member)
    · have line := sound.transcribed.lines fd (sound.mem_opened.mpr List.mem_cons_self)
      simp [World.closing, spokenBefore, line, sound.transcribed.finished]

/-- Any client between two frames may be closed. -/
theorem closable {fd : Int} (sound : world.Sound sockfd (fd :: fds)) :
    world.Closable sockfd fd fds :=
  ⟨sound.mem_opened.mpr List.mem_cons_self, sound.notListening List.mem_cons_self, sound.closing⟩

end World.Sound

namespace World

/-- Whether the next frame of `fd` cannot be read. -/
def drops (world : World ρ) (fd : Int) : Bool :=
  (receiveFrame (world.connection fd).pending).service.drops

/-- The next frame of `fd` is not there yet. -/
def waits (world : World ρ) (fd : Int) : Prop :=
  (receiveFrame (world.connection fd).pending).service = .waiting

/-- Between `world` and `next` one frame of `fd` was requested, and no other
connection was read. -/
def Attempted (world : World ρ) (fd : Int) (next : World ρ) : Prop :=
  attempts next.trace = fd :: attempts world.trace ∧
    ∀ other, other ≠ fd → next.connection other = world.connection other

/-- Between `world` and `next` one frame of each descriptor in `ready` was
requested, and none of any other. -/
def ServesExactly (world : World ρ) (ready : List Int) (next : World ρ) : Prop :=
  ∀ fd, (attempts next.trace).count fd =
    (attempts world.trace).count fd + if fd ∈ ready then 1 else 0

/-- The frames requested in a pass are to be the ready descriptors, in any
order. -/
theorem servesExactly_iff_perm {world next : World ρ} {ready requested : List Int}
    (nodup : ready.Nodup)
    (attempted : attempts next.trace = requested.reverse ++ attempts world.trace) :
    world.ServesExactly ready next ↔ requested.Perm ready := by
  rw [List.perm_iff_count]
  refine forall_congr' fun fd => ?_
  rw [attempted, List.count_append, List.count_reverse, nodup.count]
  omega

/-- The stream of `fd` begins with a complete frame. -/
def HasFrame (world : World ρ) (fd : Int) : Prop :=
  complete byteLength (streamOf (world.connection fd).pending) ≠ []

instance (world : World ρ) (fd : Int) : Decidable (world.HasFrame fd) :=
  inferInstanceAs (Decidable (_ ≠ _))

/-- Without waiting, a client is dropped exactly when it has no frame. -/
theorem drops_iff_not_hasFrame {world : World ρ} {fd : Int} (prompt : ¬world.waits fd) :
    world.drops fd = true ↔ ¬world.HasFrame fd := by
  have explains := receiveFrame_explains (world.connection fd).pending
  unfold HasFrame drops
  rw [waits] at prompt
  cases service : (receiveFrame (world.connection fd).pending).service with
  | waiting => exact absurd service prompt
  | dropped =>
      rw [service] at explains
      simpa [Service.drops, Service.Explains] using explains
  | word payload =>
      rw [service] at explains
      obtain ⟨letter, lengthEq, stream⟩ := explains
      rw [stream, complete_cons_append byteLength lengthEq]
      simp [Service.drops]

@[simp]
theorem attempts_closing (world : World ρ) (fd : Int) :
    attempts (world.closing fd).trace = attempts world.trace :=
  rfl

/-- A service changes no words by itself. -/
theorem words_serve (world : World ρ) (fd other : Int) (served : Served) :
    ((world.serve fd served).connection other).words = (world.connection other).words := by
  by_cases same : other = fd
  · subst same
    simp [serve, consume]
  · simp [serve, consume, same]

theorem attempted_serve (world : World ρ) (fd : Int) (served : Served) (line : Line) :
    world.Attempted fd
      (((world.record (.reading fd)).serve fd served).record (.printed line)) := by
  refine ⟨rfl, ?_⟩
  intro other apart
  simp [record, serve, consume, apart]

theorem attempted_speak (world : World ρ) (fd : Int) (served : Served) (word : List UInt8) :
    world.Attempted fd (((world.record (.reading fd)).serve fd served).speak fd word) := by
  refine ⟨rfl, ?_⟩
  intro other apart
  simp [record, serve, consume, speak, apart]

end World

/-! ## What the calls preserve -/

section Calls

variable {world : World ρ} {sockfd : Int} {fds : List Int}

theorem wp_readExitFlag (sound : world.Sound sockfd fds) :
    wp readExitFlag (fun _ next => next.Sound sockfd fds) (Stopped sockfd) world := by
  simp only [readExitFlag, wp_bind, wp_get]
  cases world.signals with
  | nil => exact sound
  | cons sigint signals => exact sound.of_eq rfl rfl rfl rfl rfl

theorem wp_allocate (sound : world.Sound sockfd fds) :
    wp allocate (fun _ next => next.Sound sockfd fds) (Stopped sockfd) world := by
  simp only [allocate, wp_bind, wp_get]
  cases world.allocations with
  | nil => exact sound
  | cons succeeds allocations => exact sound.of_eq rfl rfl rfl rfl rfl

theorem wp_multiplex (sound : world.Sound sockfd fds) {call : Call}
    (notRead : ∀ fd, call ≠ .read fd) :
    wp (multiplex call) (fun _ next => next.Sound sockfd fds) (Stopped sockfd) world := by
  simp only [multiplex, wp_bind, wp_get]
  rcases world.ready with _ | ⟨_ | _ | _, ready⟩
  · exact sound.halted_blocked notRead
  all_goals exact sound.of_eq rfl rfl rfl rfl rfl

/-- `accept` adds one client, or none. -/
theorem wp_accept (sound : world.Sound sockfd fds) :
    wp accept
      (fun reply next =>
        match reply with
        | .returned fd => next.Sound sockfd (fd :: fds)
        | _ => next.Sound sockfd fds)
      (Stopped sockfd) world := by
  simp only [accept, wp_bind, wp_get]
  rcases world.incoming with _ | ⟨⟨fd, replies⟩ | _ | _, incoming⟩
  · exact sound.halted_blocked (by simp)
  · by_cases acceptable : world.Acceptable fd
    · simp only [if_pos acceptable]
      exact (sound.established replies acceptable).of_eq rfl rfl rfl rfl rfl
    · simp only [if_neg acceptable]
      exact sound.halted_blocked (by simp)
  all_goals exact sound.of_eq rfl rfl rfl rfl rfl

/-- Nobody has been connected yet. -/
structure World.Idle (world : World ρ) : Prop where
  trace : world.trace = []
  dropped : world.dropped = []
  word : world.word.length = maxWordLen

namespace World.Idle

theorem boot (environment : Environment ρ) : environment.boot.Idle :=
  ⟨rfl, rfl, by simp only [Environment.boot, List.length_ofFn, maxWordLen]⟩

theorem bound (idle : world.Idle) (listening : Option Int) :
    World.Idle { world with listening := listening } :=
  ⟨idle.trace, idle.dropped, idle.word⟩

theorem decoded (idle : world.Idle) : world.Decoded := by
  refine ⟨?_, ?_, ?_⟩
  · rw [connections, opened, idle.trace, idle.dropped]
    exact nofun
  · rw [opened, idle.trace]
    exact nofun
  · rw [idle.trace, idle.dropped]
    rfl

theorem sound (idle : world.Idle) (listening : world.listening = some sockfd) :
    world.Sound sockfd [] where
  perm := by rw [opened, idle.trace, openDescriptors]
  nodup := List.nodup_nil
  range := nofun
  listening := listening
  apart := List.not_mem_nil
  orderly := idle.trace ▸ trivial
  word := idle.word
  boundary := nofun
  settled := idle.dropped ▸ nofun
  transcribed := idle.decoded.transcribed

theorem halted_exit (idle : world.Idle) (sockfd : Int) (status : Nat) (message : String) :
    Stopped sockfd (.exit status message) world where
  notFault := nofun
  notFuel := nofun
  orderly := idle.trace ▸ trivial
  decoded := idle.decoded
  heldUp := nofun

variable {halt : Halt Call → World ρ → Prop} (idle : world.Idle)

include idle

theorem wp_unlink :
    wp unlink (fun _ next => next.Idle ∧ next.listening = world.listening) halt world :=
  ⟨⟨idle.trace, idle.dropped, idle.word⟩, rfl⟩

theorem wp_socket :
    wp socket (fun fd next => next.Idle ∧ (fd ≠ -1 → next.listening = some fd)) halt world := by
  simp only [socket, wp_bind, wp_get]
  cases world.socketReply with
  | none => exact ⟨idle, fun failed => absurd rfl failed⟩
  | some fd => exact ⟨⟨idle.trace, idle.dropped, idle.word⟩, fun _ => rfl⟩

theorem wp_bind :
    wp bind (fun _ next => next.Idle ∧ next.listening = world.listening) halt world := by
  simp only [bind, Program.wp_bind, wp_get]
  split
  · exact ⟨⟨idle.trace, idle.dropped, idle.word⟩, rfl⟩
  · exact ⟨idle, rfl⟩

theorem wp_listen :
    wp listen (fun _ next => next.Idle ∧ next.listening = world.listening) halt world :=
  ⟨idle, rfl⟩

end World.Idle

section Serve

variable {fd : Int} (sound : world.Sound sockfd (fd :: fds))

include sound

/-- A client in the middle of a frame keeps its server waiting. -/
theorem World.Sound.waiting
    (waits : (receiveFrame (world.connection fd).pending).service = .waiting) :
    Stopped sockfd (.blocked (.read fd))
      (world.serve fd (receiveFrame (world.connection fd).pending)) := by
  refine ⟨⟨nofun, nofun, sound.orderly, ?_, ?_, sound.transcribed.finished⟩, ?_⟩
  · intro connection member
    rcases List.mem_append.mp member with isOpen | dropped
    · obtain ⟨other, otherOpen, rfl⟩ := List.mem_map.mp isOpen
      by_cases same : other = fd
      · subst same
        simpa [World.serve, World.consume, Connection.serve] using
          (sound.boundary other List.mem_cons_self).waiting waits
      · simpa [World.serve, World.consume, same] using
          (sound.boundary other (sound.mem_opened.mp otherOpen)).settled
    · exact sound.settled connection dropped
  · intro other member
    rw [World.words_serve]
    exact sound.transcribed.lines other member
  · rintro _ ⟨⟩
    refine ⟨sound.mem_opened.mpr List.mem_cons_self, ?_, ?_⟩
    · simpa [World.serve, World.consume, Connection.serve] using
        (sound.boundary fd List.mem_cons_self).midFrame waits
    · intro other isOpen apart
      simpa [World.serve, World.consume, apart] using
        sound.boundary other (sound.mem_opened.mp isOpen)

/-- A client whose frame cannot be read is ready to be closed. -/
theorem World.Sound.drop
    (drops : (receiveFrame (world.connection fd).pending).service = .dropped) (line : Line)
    (expected : Expected line)
    (silent : ∀ fd, spoken fd (.printed line :: world.trace) = spoken fd world.trace) :
    ((world.serve fd (receiveFrame (world.connection fd).pending)).record
      (.printed line)).Closable sockfd fd fds := by
  obtain ⟨isOpen, notListening, closed⟩ := sound.closable
  refine ⟨isOpen, notListening, ?_⟩
  exact {
    perm := closed.perm
    nodup := closed.nodup
    range := closed.range
    listening := closed.listening
    apart := closed.apart
    orderly := ⟨isOpen, expected, sound.orderly⟩
    word := closed.word
    boundary := by
      intro other member
      have apart : other ≠ fd := ne_of_mem_of_not_mem member (List.nodup_cons.mp sound.nodup).1
      simpa [World.closing, World.record, World.serve, World.consume, apart] using
        closed.boundary other member
    settled := by
      rintro connection (_ | ⟨_, member⟩)
      · simpa [World.record, World.serve, World.consume, Connection.serve] using
          (sound.boundary fd List.mem_cons_self).dropped drops
      · exact sound.settled connection member
    transcribed := by
      constructor
      · intro other member
        have line := closed.transcribed.lines other member
        rw [← World.words_serve] at line
        exact line.trans (silent other).symm
      · refine List.cons_eq_cons.mpr ⟨?_, sound.transcribed.finished⟩
        have line := (sound.transcribed.lines fd isOpen).trans (silent fd).symm
        exact (World.words_serve world fd fd _).trans line }

/-- A word that was read is printed for its own client. -/
theorem World.Sound.speak {payload : List UInt8}
    (got : (receiveFrame (world.connection fd).pending).service = .word payload) :
    ((world.serve fd (receiveFrame (world.connection fd).pending)).speak fd
      (terminated world.word payload)).Sound sockfd (fd :: fds) := by
  obtain ⟨short, boundary⟩ := (sound.boundary fd List.mem_cons_self).word got
  rw [← sound.word] at short
  exact {
    perm := sound.perm
    nodup := sound.nodup
    range := sound.range
    listening := sound.listening
    apart := sound.apart
    orderly := ⟨trivial, sound.orderly⟩
    word := (length_terminated (Nat.le_of_lt short)).trans sound.word
    boundary := by
      intro other member
      by_cases same : other = fd
      · subst same
        simpa [World.serve, World.consume, World.speak, cString_terminated short,
          Connection.serve, Connection.speak] using boundary
      · simpa [World.serve, World.consume, World.speak, same] using
          sound.boundary other member
    settled := sound.settled
    transcribed := by
      refine ⟨?_, sound.transcribed.finished⟩
      intro other member
      have line := sound.transcribed.lines other member
      by_cases same : other = fd
      · subst same
        simp [World.serve, World.consume, World.speak, spoken, line]
      · simpa [World.serve, World.consume, World.speak, spoken, same, Ne.symm same] using line }

/-- Reading a frame keeps the client between two frames, or leaves it to be
closed; it halts only to wait for the rest of a frame. -/
theorem wp_readWord_sound :
    wp (readWord fd)
      (fun stays next =>
        stays = !world.drops fd ∧ world.Attempted fd next ∧
          if stays then next.Sound sockfd (fd :: fds) else next.Closable sockfd fd fds)
      (fun reason next => Stopped sockfd reason next ∧ world.waits fd) world := by
  have marked := sound.reading fd
  rw [wp_readWord (sound.mem_opened.mpr List.mem_cons_self) sound.word, Served.Ends]
  cases service : (receiveFrame (world.connection fd).pending).service with
  | waiting => exact ⟨marked.waiting service, service⟩
  | dropped =>
      exact ⟨by simp [World.drops, service, Service.drops], World.attempted_serve world fd _ _,
        marked.drop service _ trivial fun _ => rfl⟩
  | word payload =>
      exact ⟨by simp [World.drops, service, Service.drops], World.attempted_speak world fd _ _,
        marked.speak service⟩

end Serve

end Calls

end CExamples.IoMultiplexing
