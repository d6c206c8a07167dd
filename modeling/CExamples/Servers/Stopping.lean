import CExamples.Servers.Core
import CExamples.Transition.Inevitable

/-!
# Stopping a server

Once SIGINT has arrived the server accepts at most one more client, the one that ends
the `accept` in which it waits already, serves it and ends, whichever calls fail.  A
server that ends well has closed all of its clients and its listening socket.
-/

namespace CExamples.Servers

open CExamples.Transition

/-! ## What a step can do -/

/-- The steps of a server; `flag` is `exit_flag` behind a call that SIGINT may have
interrupted, and a step that is not `calm` may fail. -/
inductive Moves (program : Program) (calm : Bool) (state : State) : State → Prop
  | signalled (down : state.exitFlag = false) : Moves program calm state (handler state)
  | leaves (place : state.control = .head ∨ state.control = .recheck)
      (flag : state.exitFlag = true) : Moves program calm state { state with control := program.leaving }
  | enters (place : state.control = .head) (down : state.exitFlag = false) :
      Moves program calm state { state with control := .accept }
  | returns (place : state.control = .recheck) (down : state.exitFlag = false) :
      Moves program calm state { state with control := .head }
  | connects (place : state.control = .accept) (stream : List UInt8) :
      Moves program calm state
        { state with control := program.serving stream, accepted := state.accepted + 1 }
  | misses {flag : Bool} (place : state.control = .accept)
      (keeps : state.exitFlag = true → flag = true) :
      Moves program calm state { state with control := .recheck, exitFlag := flag }
  | quits {flag : Bool} (place : state.control = .accept)
      (keeps : state.exitFlag = true → flag = true) (fails : calm = false) :
      Moves program calm state
        { state with control := .exited false, listening := false, exitFlag := flag }
  | reads {size : UInt8} {stream : List UInt8} (place : state.control = .readSize (size :: stream)) :
      Moves program calm state { state with control := .readWord size stream }
  | hangsUp {flag : Bool} {stream : List UInt8} (place : state.control = .readSize stream)
      (keeps : state.exitFlag = true → flag = true) :
      Moves program calm state { state with control := .closeClient, exitFlag := flag }
  | takes {flag : Bool} {size : UInt8} {stream rest : List UInt8}
      (place : state.control = .readWord size stream) (less : rest.length ≤ stream.length)
      (keeps : state.exitFlag = true → flag = true) :
      Moves program calm state { state with control := .readSize rest, exitFlag := flag }
  | shuts (place : state.control = .shutdownClient) :
      Moves program calm state { state with control := .closeClient }
  | closes (place : state.control = .closeClient) :
      Moves program calm state { state with control := .head, closed := state.closed + 1 }
  | shutsListener (place : state.control = .shutdownListener) :
      Moves program calm state { state with control := .closeListener }
  | closesListener (place : state.control = .closeListener) :
      Moves program calm state { state with control := program.ending, listening := false }
  | unlinks {linked : Bool} (place : state.control = .unlink)
      (keeps : linked = true → state.linked = true) (fails : linked = true → calm = false) :
      Moves program calm state { state with control := .exited true, linked := linked }
  | aborts (place : state.control = .shutdownClient ∨ state.control = .closeClient ∨
      state.control = .shutdownListener ∨ state.control = .closeListener)
      (fails : calm = false) :
      Moves program calm state { state with control := .exited false }

section Moves

variable {program : Program} {calm : Bool} {state next : State}

theorem go_moves {count : Nat} (stepped : go program count state = some next) :
    Moves program calm state next := by
  cases place : state.control with
  | head =>
      by_cases flag : state.exitFlag = true
      · simp only [go, place, if_pos flag] at stepped
        cases stepped
        exact .leaves (Or.inl place) flag
      · simp only [go, place, if_neg flag] at stepped
        cases stepped
        exact .enters place (by simpa using flag)
  | recheck =>
      by_cases flag : state.exitFlag = true
      · simp only [go, place, if_pos flag] at stepped
        cases stepped
        exact .leaves (Or.inr place) flag
      · simp only [go, place, if_neg flag] at stepped
        cases stepped
        exact .returns place (by simpa using flag)
  | readSize stream =>
      cases stream with
      | nil =>
          simp only [go, place] at stepped
          cases stepped
          exact .hangsUp place id
      | cons size stream =>
          simp only [go, place] at stepped
          cases stepped
          exact .reads place
  | readWord size stream =>
      simp only [go, place] at stepped
      cases stepped
      exact .takes place (by simp) id
  | accept | exited =>
      simp only [go, place] at stepped
      cases stepped
  | shutdownClient =>
      simp only [go, place] at stepped
      cases stepped
      exact .shuts place
  | closeClient =>
      simp only [go, place] at stepped
      cases stepped
      exact .closes place
  | shutdownListener =>
      simp only [go, place] at stepped
      cases stepped
      exact .shutsListener place
  | closeListener =>
      simp only [go, place] at stepped
      cases stepped
      exact .closesListener place
  | unlink =>
      simp only [go, place] at stepped
      cases stepped
      exact .unlinks place (by simp) (by simp)

/-- A call that waits returns -1, and SIGINT may have set the flag. -/
theorem waitFails_moves {flag : Bool} (keeps : state.exitFlag = true → flag = true)
    (fails : program = .setsockopt → calm = false)
    (stepped : waitFails program { state with exitFlag := flag } = some next) :
    Moves program calm state next := by
  cases place : state.control with
  | accept =>
      cases program with
      | setsockopt =>
          simp only [waitFails, place] at stepped
          cases stepped
          exact .quits place keeps (fails rfl)
      | _ =>
          simp only [waitFails, place] at stepped
          cases stepped
          exact .misses place keeps
  | readSize stream =>
      simp only [waitFails, place] at stepped
      cases stepped
      exact .hangsUp place keeps
  | readWord size stream =>
      simp only [waitFails, place] at stepped
      cases stepped
      exact .takes place (Nat.le_refl _) keeps
  | _ =>
      simp only [waitFails, place] at stepped
      cases stepped

theorem otherFails_moves (fails : calm = false) (stepped : otherFails state = some next) :
    Moves program calm state next := by
  cases place : state.control with
  | shutdownClient | closeClient | shutdownListener | closeListener =>
      simp only [otherFails, place] at stepped
      cases stepped
      exact .aborts (by simp [place]) fails
  | unlink =>
      simp only [otherFails, place] at stepped
      cases stepped
      exact .unlinks place id fun _ => fails
  | _ =>
      simp only [otherFails, place] at stepped
      cases stepped

theorem connect_moves {stream : List UInt8} (stepped : connect program stream state = some next) :
    Moves program calm state next := by
  cases place : state.control with
  | accept =>
      simp only [connect, place] at stepped
      cases stepped
      exact .connects place stream
  | _ =>
      simp only [connect, place] at stepped
      cases stepped

theorem step_moves {action : Action} (stepped : step program state action = some next) :
    Moves program (action.calm program) state next := by
  cases action with
  | go count => exact go_moves stepped
  | connect stream => exact connect_moves stepped
  | interrupted =>
      apply waitFails_moves (fun _ => rfl) _ stepped
      rintro rfl
      rfl
  | failed =>
      rcases Option.or_eq_some_iff.mp stepped with waits | ⟨_, other⟩
      · exact waitFails_moves id (fun _ => rfl) waits
      · exact otherFails_moves rfl other
  | sigint =>
      have down : state.exitFlag = false := by
        cases flag : state.exitFlag with
        | false => rfl
        | true =>
            cases place : state.control <;> simp only [step, place, flag, if_true] at stepped <;>
              cases stepped
      have nextEq : next = handler state := by
        cases place : state.control <;>
          simp only [step, place, down, Bool.false_eq_true, if_false] at stepped <;>
          cases stepped <;> rfl
      rw [nextEq]
      exact .signalled down

end Moves

/-! ## The clients and the sockets -/

/-- How many clients the server has accepted and not yet closed. -/
def Control.clients : Control → Nat
  | .readSize _ | .readWord _ _ | .shutdownClient | .closeClient => 1
  | _ => 0

/-- The loop is left. -/
def Control.behind : Control → Bool
  | .shutdownListener | .closeListener | .unlink | .exited true => true
  | _ => false

theorem Control.clients_le (control : Control) : control.clients ≤ 1 := by
  cases control <;> simp [clients]

@[simp]
theorem clients_serving (program : Program) (stream : List UInt8) :
    (program.serving stream).clients = 1 := by
  cases program <;> rfl

@[simp]
theorem behind_serving (program : Program) (stream : List UInt8) :
    (program.serving stream).behind = false := by
  cases program <;> rfl

@[simp]
theorem clients_leaving (program : Program) : program.leaving.clients = 0 := by
  cases program <;> rfl

@[simp]
theorem clients_ending (program : Program) : program.ending.clients = 0 := by
  cases program <;> rfl

@[simp]
theorem leaving_ne_unlink (program : Program) : program.leaving ≠ .unlink := by
  cases program <;> simp [Program.leaving]

@[simp]
theorem leaving_ne_exited (program : Program) (success : Bool) :
    program.leaving ≠ .exited success := by
  cases program <;> simp [Program.leaving]

@[simp]
theorem serving_ne_unlink (program : Program) (stream : List UInt8) :
    program.serving stream ≠ .unlink := by
  cases program <;> simp [Program.serving]

@[simp]
theorem serving_ne_exited (program : Program) (stream : List UInt8) (success : Bool) :
    program.serving stream ≠ .exited success := by
  cases program <;> simp [Program.serving]

@[simp]
theorem ending_ne_failure (program : Program) : program.ending ≠ .exited false := by
  cases program <;> simp [Program.ending]

/-- What every step keeps. -/
structure Kept (program : Program) (state : State) : Prop where
  /-- Every client but the one that is served is closed. -/
  balance : state.control ≠ .exited false →
    state.accepted = state.closed + state.control.clients
  most : state.closed ≤ state.accepted ∧ state.accepted ≤ state.closed + 1
  /-- The loop is left for SIGINT only. -/
  told : state.control.behind = true → state.exitFlag = true
  quiet : state.control = .unlink ∨ state.control = .exited true → state.listening = false
  /-- Only a domain socket has a name. -/
  named : program ≠ .domainSocket → state.linked = false

namespace Kept

variable {program : Program} {calm : Bool} {state next : State}

theorem initial : Kept program (initial program) where
  balance _ := rfl
  most := ⟨Nat.le_refl _, Nat.zero_le _⟩
  told behind := by cases behind
  quiet ended := by rcases ended with ended | ended <;> cases ended
  named other := by simp [Servers.initial, other]

/-- A step by which no client comes or goes. -/
theorem same (kept : Kept program state) (running : state.control ≠ .exited false)
    (clients : next.control.clients = state.control.clients)
    (accepted : next.accepted = state.accepted) (closed : next.closed = state.closed)
    (linked : next.linked = true → state.linked = true)
    (told : next.control.behind = true → next.exitFlag = true)
    (quiet : next.control = .unlink ∨ next.control = .exited true → next.listening = false) :
    Kept program next where
  balance _ := by rw [accepted, closed, clients, kept.balance running]
  most := by
    rw [accepted, closed]
    exact kept.most
  told := told
  quiet := quiet
  named other := by
    apply Bool.eq_false_iff.mpr
    intro named
    have unnamed := kept.named other
    rw [linked named] at unnamed
    cases unnamed

/-- A step that ends the server with a failure. -/
theorem fails (kept : Kept program state) (failed : next.control = .exited false)
    (accepted : next.accepted = state.accepted) (closed : next.closed = state.closed)
    (linked : next.linked = state.linked) : Kept program next where
  balance ends := absurd failed ends
  most := by
    rw [accepted, closed]
    exact kept.most
  told behind := by
    rw [failed] at behind
    cases behind
  quiet ended := by simp [failed] at ended
  named other := by rw [linked, kept.named other]

theorem moves (kept : Kept program state) (moves : Moves program calm state next) :
    Kept program next := by
  cases moves with
  | signalled => exact ⟨kept.balance, kept.most, fun _ => rfl, kept.quiet, kept.named⟩
  | leaves place flag =>
      have clients : program.leaving.clients = state.control.clients := by
        rw [clients_leaving]
        rcases place with place | place <;> rw [place] <;> rfl
      have running : state.control ≠ .exited false := by
        rcases place with place | place <;> simp [place]
      exact kept.same running clients rfl rfl id (fun _ => flag) (by simp)
  | enters place | returns place | shuts place | reads place | misses place | hangsUp place
  | takes place =>
      exact kept.same (by simp [place]) (by rw [place]; rfl) rfl rfl id
        (by simp [Control.behind]) (by simp)
  | connects place stream =>
      have balance := kept.balance (by simp [place])
      simp only [place, Control.clients, Nat.add_zero] at balance
      exact ⟨fun _ => by simp [balance], by simp [balance], by simp, by simp, kept.named⟩
  | closes place =>
      have balance := kept.balance (by simp [place])
      simp only [place, Control.clients] at balance
      exact ⟨fun _ => by simp [balance, Control.clients], by simp [balance],
        by simp [Control.behind], by simp, kept.named⟩
  | shutsListener place =>
      exact kept.same (by simp [place]) (by rw [place]; rfl) rfl rfl id
        (fun _ => kept.told (by rw [place]; rfl)) (by simp)
  | closesListener place =>
      exact kept.same (by simp [place]) (by rw [place]; exact clients_ending program) rfl rfl id
        (fun _ => kept.told (by rw [place]; rfl)) (fun _ => rfl)
  | unlinks place linked =>
      exact kept.same (by simp [place]) (by rw [place]; rfl) rfl rfl linked
        (fun _ => kept.told (by rw [place]; rfl)) (fun _ => kept.quiet (Or.inl place))
  | quits | aborts => exact kept.fails rfl rfl rfl rfl

end Kept

/-! ## Behind SIGINT -/

/-- How many clients the server still accepts when the flag is set: the one that ends the
`accept` in which it waits. -/
def Control.late : Control → Nat
  | .accept => 1
  | _ => 0

/-- How far a server that no longer accepts is from its end. -/
def Control.rank : Control → Nat
  | .exited _ => 0
  | .unlink => 1
  | .closeListener => 2
  | .shutdownListener => 3
  | .head | .recheck | .accept => 4
  | .closeClient => 5
  | .shutdownClient => 6
  | .readSize stream => 6 + 2 * stream.length
  | .readWord _ stream => 7 + 2 * stream.length

/-- The server has ended. -/
def State.ended (state : State) : Prop :=
  ∃ success, state.control = .exited success

/-- It has ended well, and left nothing behind. -/
structure State.Tidy (state : State) : Prop where
  success : state.control = .exited true
  clients : state.accepted = state.closed
  quiet : state.listening = false
  unlinked : state.linked = false

section Behind

variable {program : Program} {calm : Bool} {state next : State}

/-- A flag that is set stays set. -/
theorem Moves.flag (moves : Moves program calm state next) (flag : state.exitFlag = true) :
    next.exitFlag = true := by
  cases moves with
  | signalled => rfl
  | misses _ keeps | quits _ keeps _ | hangsUp _ keeps | takes _ _ keeps => exact keeps flag
  | _ => exact flag

@[simp]
theorem late_leaving (program : Program) : program.leaving.late = 0 := by
  cases program <;> rfl

@[simp]
theorem late_serving (program : Program) (stream : List UInt8) :
    (program.serving stream).late = 0 := by
  cases program <;> rfl

@[simp]
theorem late_ending (program : Program) : program.ending.late = 0 := by
  cases program <;> rfl

/-- Behind SIGINT a client is accepted only by the `accept` that waited already. -/
theorem Moves.late (moves : Moves program calm state next) (flag : state.exitFlag = true) :
    next.accepted + next.control.late ≤ state.accepted + state.control.late := by
  cases moves with
  | signalled down | enters _ down | returns _ down =>
      rw [down] at flag
      cases flag
  | connects place =>
      simp only [late_serving, place]
      exact Nat.le_refl _
  | leaves | closesListener => simp
  | _ => simp [Control.late]

/-- Off the `accept`, every step behind SIGINT comes closer to the end. -/
theorem Moves.rank (moves : Moves program calm state next) (flag : state.exitFlag = true)
    (off : state.control ≠ .accept) : next.control.rank < state.control.rank := by
  cases moves with
  | signalled down | enters _ down | returns _ down =>
      rw [down] at flag
      cases flag
  | connects place | misses place | quits place => exact absurd place off
  | leaves place =>
      have leaving : program.leaving.rank ≤ 3 := by
        cases program <;> simp [Program.leaving, Control.rank]
      rcases place with place | place <;> rw [place] <;> exact Nat.lt_succ_of_le leaving
  | shuts place | closes place | shutsListener place | unlinks place =>
      simp [place, Control.rank]
  | reads place | hangsUp place | takes place =>
      simp only [place, Control.rank, List.length_cons]
      omega
  | closesListener place =>
      rw [place]
      cases program <;> simp [Program.ending, Control.rank]
  | aborts place =>
      rcases place with place | place | place | place <;> simp [place, Control.rank]

/-- A server that has not ended goes on without a call that fails. -/
theorem exists_step (program : Program) (running : ¬state.ended) :
    ∃ action successor, action.calm program = true ∧
      step program state action = some successor := by
  cases place : state.control with
  | accept =>
      exact ⟨.connect [], _, rfl, by rw [step, connect, place]⟩
  | exited success => exact absurd ⟨success, place⟩ running
  | head | recheck =>
      by_cases flag : state.exitFlag = true
      · exact ⟨.go 0, _, rfl, by simp only [step, go, place, if_pos flag]; rfl⟩
      · exact ⟨.go 0, _, rfl, by simp only [step, go, place, if_neg flag]; rfl⟩
  | readSize stream =>
      cases stream <;> exact ⟨.go 0, _, rfl, by rw [step, go, place]⟩
  | _ => exact ⟨.go 0, _, rfl, by rw [step, go, place]⟩

/-- Behind SIGINT no step leads to `accept`. -/
theorem Moves.off (moves : Moves program calm state next) (flag : state.exitFlag = true) :
    next.control ≠ .accept := by
  cases moves with
  | signalled down | enters _ down | returns _ down =>
      rw [down] at flag
      cases flag
  | connects => cases program <;> simp [Program.serving]
  | leaves => cases program <;> simp [Program.leaving]
  | closesListener => cases program <;> simp [Program.ending]
  | _ => simp

/-- Behind SIGINT every run ends, one that may fail and one that may not. -/
theorem inevitably_ended (program : Program) {next : Step State Action} {inv : State → Prop}
    (sound : ∀ state action successor, next state action = some successor →
      step program state action = some successor)
    (enabled : ∀ state, ¬state.ended →
      ∃ action successor, next state action = some successor)
    (keeps : ∀ state action successor, inv state → next state action = some successor →
      inv successor)
    (holds : inv state) (flag : state.exitFlag = true) :
    Inevitably next (fun final => final.ended ∧ inv final) state := by
  have descends : Descends next
      (fun state => inv state ∧ state.exitFlag = true ∧ state.control ≠ .accept)
      (fun final => final.ended ∧ inv final) (fun state => state.control.rank) := by
    constructor
    · exact fun state ⟨holds, _⟩ missed => enabled state fun ended => missed ⟨ended, holds⟩
    · rintro state action successor ⟨holds, flag, off⟩ _ stepped
      have moves := step_moves (sound state action successor stepped)
      exact ⟨keeps state action successor holds stepped, moves.flag flag, moves.off flag⟩
    · rintro state action successor ⟨_, flag, off⟩ _ stepped
      exact (step_moves (sound state action successor stepped)).rank flag off
  by_cases off : state.control = .accept
  · apply Inevitably.later
    · apply enabled
      rintro ⟨success, ended⟩
      rw [off] at ended
      cases ended
    · intro action successor stepped
      have moves := step_moves (sound state action successor stepped)
      exact descends.inevitably
        ⟨keeps state action successor holds stepped, moves.flag flag, moves.off flag⟩
  · exact descends.inevitably ⟨holds, flag, off⟩

end Behind

/-! ## Every run -/

/-- The server has not failed, and if it has ended nothing is left behind. -/
structure Fine (program : Program) (state : State) : Prop where
  kept : Kept program state
  good : state.control ≠ .exited false
  unlinked : state.control = .exited true → state.linked = false

/-- What a server promises in each state of its run. -/
structure Served (program : Program) (state : State) : Prop where
  /-- At most one client is open. -/
  alone : state.closed ≤ state.accepted ∧ state.accepted ≤ state.closed + 1
  /-- It ends well for SIGINT only, when its clients and its socket are closed. -/
  clean : state.control = .exited true →
    state.exitFlag = true ∧ state.accepted = state.closed ∧ state.listening = false
  /-- Behind SIGINT at most one more client is accepted. -/
  late : state.exitFlag = true → ∀ later, Reachable (step program) state later →
    later.accepted ≤ state.accepted + 1
  /-- Behind SIGINT every run ends, whichever calls fail. -/
  stops : state.exitFlag = true → Inevitably (step program) State.ended state
  /-- If the calls no longer fail, it ends well and leaves nothing behind. -/
  tidies : state.exitFlag = true → ¬state.ended →
    Inevitably (restrict (step program) fun _ action => action.calm program = true) State.Tidy state

section Runs

variable {program : Program} {state next : State}

theorem reachable_kept (reachable : Reachable (step program) (initial program) state) :
    Kept program state := by
  apply reachable.invariant Kept.initial
  intro before action after kept stepped
  exact kept.moves (step_moves stepped)

/-- What was reached behind SIGINT has accepted at most the one client more. -/
theorem reachable_late {later : State} (flag : state.exitFlag = true)
    (reachable : Reachable (step program) state later) :
    later.accepted + later.control.late ≤ state.accepted + state.control.late := by
  suffices holds : later.exitFlag = true ∧
      later.accepted + later.control.late ≤ state.accepted + state.control.late from holds.2
  apply reachable.invariant ⟨flag, Nat.le_refl _⟩
  rintro before action after ⟨beforeFlag, bound⟩ stepped
  have moves := step_moves stepped
  exact ⟨moves.flag beforeFlag, Nat.le_trans (moves.late beforeFlag) bound⟩

namespace Fine

/-- A step that does not fail. -/
theorem moves (fine : Fine program state) (moves : Moves program true state next) :
    Fine program next := by
  have kept := fine.kept.moves moves
  refine ⟨kept, ?_, ?_⟩
  · cases moves with
    | signalled => exact fine.good
    | leaves => exact leaving_ne_exited program false
    | connects _ stream => exact serving_ne_exited program stream false
    | closesListener => exact ending_ne_failure program
    | quits _ _ fails | aborts _ fails => cases fails
    | _ => simp
  · intro ended
    cases moves with
    | signalled => exact fine.unlinked ended
    | leaves => exact absurd ended (leaving_ne_exited program true)
    | connects _ stream => exact absurd ended (serving_ne_exited program stream true)
    | closesListener =>
        apply kept.named
        rintro rfl
        cases ended
    | unlinks _ _ fails =>
        apply Bool.eq_false_iff.mpr
        intro linked
        cases fails linked
    | _ => cases ended

/-- A server that has ended without a failure is tidy. -/
theorem tidy (fine : Fine program state) (ended : state.ended) : state.Tidy := by
  rcases ended with ⟨success, ended⟩
  cases success with
  | false => exact absurd ended fine.good
  | true =>
      have balance := fine.kept.balance fine.good
      rw [ended] at balance
      exact ⟨ended, balance, fine.kept.quiet (Or.inr ended), fine.unlinked ended⟩

end Fine

end Runs

end CExamples.Servers
