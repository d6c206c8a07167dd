import CExamples.Pipe.Simple.Frames
import CExamples.Pipe.Synchronized.LockStep
import CExamples.Transition.Simulation

/-!
# The synchronized pipe as a simple pipe

Without the semaphores the processes of the synchronized pipe are those of the
simple one.  A post or a wait is no step of the simple pipe, and every other step
is one.  Whatever the semaphores start with, the synchronized pipe therefore
reaches nothing that the simple pipe does not reach.
-/

namespace CExamples.Pipe.Synchronized

open CExamples.Transition
open CExamples.Word
open CExamples.Pipe.Reliable (Caller Line)

/-! ## What a step can do -/

/-- What the child is about to write. -/
def Child.data : Child → Option (List UInt8)
  | .writeLength word _ => some [UInt8.ofNat word.length]
  | .writeWord word _ => some word
  | _ => none

/-- The steps of the child. -/
inductive ChildMoves (capacity : Nat) (state : State) : State → Prop
  | opens {file : List UInt8} (childEq : state.child = .start file) :
      ChildMoves capacity state { state with child := .reading file [] }
  | reads {file word : List UInt8} (childEq : state.child = .reading file word) :
      ChildMoves capacity state { state with
        child := .resume (readNext isDelimiter maxWordLength file word) }
  | breaks {data : List UInt8} (writes : state.child.data = some data)
      (noReader : state.hasReader = false) :
      ChildMoves capacity state { state with child := .failed }
  | begins {word : List UInt8} {caller : Caller}
      (childEq : state.child = .writeLength word caller) (nonempty : word ≠ [])
      (reader : state.hasReader = true) (room : state.pipe.length + 1 ≤ capacity) :
      ChildMoves capacity state { state with
        pipe := state.pipe ++ [UInt8.ofNat word.length]
        child := .writeWord word caller }
  | terminates {caller : Caller} (childEq : state.child = .writeLength [] caller)
      (reader : state.hasReader = true) (room : state.pipe.length + 1 ≤ capacity) :
      ChildMoves capacity state { state with
        pipe := state.pipe ++ [0]
        child := .post caller
        written := state.written + 1 }
  | sends {word : List UInt8} {caller : Caller}
      (childEq : state.child = .writeWord word caller) (reader : state.hasReader = true)
      (room : state.pipe.length + word.length ≤ capacity) :
      ChildMoves capacity state { state with
        pipe := state.pipe ++ word
        child := .post caller
        written := state.written + 1 }
  | posts {caller : Caller} (childEq : state.child = .post caller) :
      ChildMoves capacity state { state with
        semParent := state.semParent + 1
        posted := state.posted + 1
        child := .wait caller }
  | waits {caller : Caller} {semChild : Nat} (childEq : state.child = .wait caller)
      (waited : state.semChild = semChild + 1) :
      ChildMoves capacity state { state with semChild := semChild, child := afterSend caller }
  | exits (childEq : state.child = .closing) :
      ChildMoves capacity state { state with child := .exited }

theorem write_cases {capacity : Nat} {state next : State} {data : List UInt8}
    {after : List UInt8 → State} (stepped : write capacity state data after = some next) :
    state.hasReader = true ∧ state.pipe.length + data.length ≤ capacity ∧
        next = after (state.pipe ++ data) ∨
      state.hasReader = false ∧ next = { state with child := .failed } := by
  unfold write at stepped
  split at stepped
  · rename_i reader
    rcases Option.map_eq_some_iff.mp stepped with ⟨pipe, pushed, rfl⟩
    rcases pushWhole_eq_some.mp pushed with ⟨room, rfl⟩
    exact Or.inl ⟨reader, room, rfl⟩
  · rename_i noReader
    cases stepped
    exact Or.inr ⟨by simpa using noReader, rfl⟩

theorem childStep_moves {capacity : Nat} {state next : State}
    (stepped : childStep capacity state = some next) : ChildMoves capacity state next := by
  cases childEq : state.child with
  | start file =>
      simp only [childStep, childEq] at stepped
      cases stepped
      exact .opens childEq
  | reading file word =>
      rw [childStep_reading childEq] at stepped
      cases stepped
      exact .reads childEq
  | writeLength word caller =>
      simp only [childStep, childEq] at stepped
      rcases write_cases stepped with ⟨reader, room, rfl⟩ | ⟨noReader, rfl⟩
      · cases word with
        | nil => exact .terminates childEq reader room
        | cons letter word => exact .begins childEq (List.cons_ne_nil letter word) reader room
      · exact .breaks (by rw [childEq]; rfl) noReader
  | writeWord word caller =>
      simp only [childStep, childEq] at stepped
      rcases write_cases stepped with ⟨reader, room, rfl⟩ | ⟨noReader, rfl⟩
      · exact .sends childEq reader room
      · exact .breaks (by rw [childEq]; rfl) noReader
  | post caller =>
      simp only [childStep, childEq] at stepped
      cases stepped
      exact .posts childEq
  | wait caller =>
      simp only [childStep, childEq] at stepped
      rcases Option.map_eq_some_iff.mp stepped with ⟨semChild, waited, rfl⟩
      exact .waits childEq (semWait_eq_some.mp waited)
  | closing =>
      simp only [childStep, childEq] at stepped
      cases stepped
      exact .exits childEq
  | exited =>
      simp only [childStep, childEq] at stepped
      cases stepped
  | failed =>
      simp only [childStep, childEq] at stepped
      cases stepped

/-- The steps of the parent. -/
inductive ParentMoves (state : State) : State → Prop
  | opens (parentEq : state.parent = .start) :
      ParentMoves state { state with parent := .wait }
  | waits {semParent : Nat} (parentEq : state.parent = .wait)
      (waited : state.semParent = semParent + 1) :
      ParentMoves state { state with semParent := semParent, parent := .readLength }
  | readsLength (parentEq : state.parent = .readLength)
      (ready : state.pipe = [] → state.hasWriter = false) :
      ParentMoves state { state with
        pipe := state.pipe.drop 1
        length := (state.pipe.take 1).headD state.length
        begun := state.begun + (state.pipe.take 1).length
        parent := if (state.pipe.take 1).headD state.length = 0 then .closing else .readWord }
  | readsWord (parentEq : state.parent = .readWord)
      (ready : state.pipe = [] → state.hasWriter = false) :
      ParentMoves state { state with
        pipe := state.pipe.drop state.length.toNat
        word := state.pipe.take state.length.toNat ++
          state.word.drop (state.pipe.take state.length.toNat).length
        parent := .print }
  | prints (parentEq : state.parent = .print) :
      ParentMoves state { state with
        word := state.word.set state.length.toNat 0
        printed := state.printed ++
          [(state.length, cString (state.word.set state.length.toNat 0))]
        parent := .post }
  | posts (parentEq : state.parent = .post) :
      ParentMoves state { state with
        semChild := state.semChild + 1
        acknowledged := state.acknowledged + 1
        parent := .wait }
  | exits (parentEq : state.parent = .closing) :
      ParentMoves state { state with parent := .exited }

theorem parentStep_moves {state next : State} (stepped : parentStep state = some next) :
    ParentMoves state next := by
  cases parentEq : state.parent with
  | start =>
      simp only [parentStep, parentEq] at stepped
      cases stepped
      exact .opens parentEq
  | wait =>
      simp only [parentStep, parentEq] at stepped
      rcases Option.map_eq_some_iff.mp stepped with ⟨semParent, waited, rfl⟩
      exact .waits parentEq (semWait_eq_some.mp waited)
  | readLength =>
      simp only [parentStep, parentEq, read] at stepped
      rcases Option.map_eq_some_iff.mp stepped with ⟨⟨got, pipe⟩, pulled, rfl⟩
      rcases pullUpTo_eq_some.mp pulled with ⟨ready, rfl, rfl⟩
      exact .readsLength parentEq ready
  | readWord =>
      simp only [parentStep, parentEq, read] at stepped
      rcases Option.map_eq_some_iff.mp stepped with ⟨⟨got, pipe⟩, pulled, rfl⟩
      rcases pullUpTo_eq_some.mp pulled with ⟨ready, rfl, rfl⟩
      exact .readsWord parentEq ready
  | print =>
      simp only [parentStep, parentEq] at stepped
      cases stepped
      exact .prints parentEq
  | post =>
      simp only [parentStep, parentEq] at stepped
      cases stepped
      exact .posts parentEq
  | closing =>
      simp only [parentStep, parentEq] at stepped
      cases stepped
      exact .exits parentEq
  | exited =>
      simp only [parentStep, parentEq] at stepped
      cases stepped

/-! ## The simple pipe in it -/

/-- Where the child of the simple pipe is.  It posts and waits nowhere. -/
def Child.simple : Child → Simple.Child
  | .start file => .start file
  | .reading file word => .reading file word
  | .writeLength word caller => .writeLength word caller
  | .writeWord word caller => .writeWord word caller
  | .post caller => Simple.afterSend caller
  | .wait caller => Simple.afterSend caller
  | .closing => .closing
  | .exited => .exited
  | .failed => .failed

/-- Where the parent of the simple pipe is. -/
def Parent.simple : Parent → Simple.Parent
  | .start => .start
  | .wait => .readLength
  | .readLength => .readLength
  | .readWord => .readWord
  | .print => .print
  | .post => .readLength
  | .closing => .closing
  | .exited => .exited

/-- The state of the simple pipe, with the frames that were sent. -/
def State.simple (state : State) (sent : List (List UInt8)) : Simple.State where
  child := state.child.simple
  parent := state.parent.simple
  pipe := state.pipe
  length := state.length
  word := state.word
  sent := sent
  printed := state.printed

/-- The simple pipe is in the state that is left without the semaphores. -/
structure Mirrors (state : State) (above : Simple.State) : Prop where
  same : above = state.simple above.sent
  sent : above.sent.length = state.written

/-- How many posts and waits are left before a process moves in the simple pipe. -/
def State.rank (state : State) : Nat :=
  (match state.child with
    | .post _ => 2
    | .wait _ => 1
    | _ => 0) +
  (match state.parent with
    | .post => 2
    | .wait => 1
    | _ => 0)

@[simp]
theorem simple_afterSend (caller : Caller) : (afterSend caller).simple = Simple.afterSend caller := by
  cases caller <;> rfl

@[simp]
theorem simple_resume (outcome : Outcome UInt8) :
    (Child.resume outcome).simple = Simple.Child.resume outcome := by
  cases outcome <;> rfl

theorem simple_ended_iff (child : Child) :
    child.simple.Ended ↔ child = .exited ∨ child = .failed := by
  cases child with
  | post caller => cases caller <;> simp [Child.simple, Simple.Child.Ended, Simple.afterSend]
  | wait caller => cases caller <;> simp [Child.simple, Simple.Child.Ended, Simple.afterSend]
  | _ => simp [Child.simple, Simple.Child.Ended]

theorem hasWriter_simple (state : State) (sent : List (List UInt8)) :
    (state.simple sent).hasWriter = state.hasWriter := by
  have starts : state.parent.simple = .start ↔ state.parent = .start := by
    cases state.parent <;> simp [Parent.simple]
  have ended : (decide (state.child.simple = .exited) || decide (state.child.simple = .failed)) =
      (decide (state.child = .exited) || decide (state.child = .failed)) := by
    rw [← Bool.decide_or, ← Bool.decide_or]
    exact decide_eq_decide.mpr (simple_ended_iff state.child)
  change (decide (state.parent.simple = .start) ||
      !(decide (state.child.simple = .exited) || decide (state.child.simple = .failed))) =
    (decide (state.parent = .start) ||
      !(decide (state.child = .exited) || decide (state.child = .failed)))
  rw [ended, decide_eq_decide.mpr starts]

theorem hasReader_simple (state : State) (sent : List (List UInt8)) :
    (state.simple sent).hasReader = state.hasReader := by
  cases parentEq : state.parent with
  | exited =>
      cases childEq : state.child with
      | post caller =>
          cases caller <;> simp [State.hasReader, Simple.State.hasReader, State.simple, parentEq,
            childEq, Child.simple, Parent.simple, Simple.afterSend]
      | wait caller =>
          cases caller <;> simp [State.hasReader, Simple.State.hasReader, State.simple, parentEq,
            childEq, Child.simple, Parent.simple, Simple.afterSend]
      | _ =>
          simp [State.hasReader, Simple.State.hasReader, State.simple, parentEq, childEq,
            Child.simple, Parent.simple]
  | _ => simp [State.hasReader, Simple.State.hasReader, State.simple, parentEq, Parent.simple]

/-- A write that the synchronized pipe makes. -/
theorem write_simple {capacity : Nat} {state : State} {sent : List (List UInt8)}
    {data : List UInt8} {after : List UInt8 → Simple.State} (reader : state.hasReader = true)
    (room : state.pipe.length + data.length ≤ capacity) :
    Simple.write capacity (state.simple sent) data after = some (after (state.pipe ++ data)) := by
  have pushed : pushWhole capacity (state.simple sent).pipe data = some (state.pipe ++ data) :=
    pushWhole_eq_some.mpr ⟨room, rfl⟩
  rw [Simple.write, hasReader_simple, if_pos reader, pushed]
  rfl

/-- A write without a reader. -/
theorem childStep_breaks {capacity : Nat} {state : State} {sent : List (List UInt8)}
    {data : List UInt8} (writes : state.child.data = some data)
    (noReader : state.hasReader = false) :
    Simple.childStep capacity (state.simple sent) =
      some { state.simple sent with child := .failed } := by
  have fails : ¬(state.simple sent).hasReader = true := by
    rw [hasReader_simple, noReader]
    exact Bool.false_ne_true
  cases childEq : state.child with
  | writeLength word caller =>
      have childAt : (state.simple sent).child = .writeLength word caller := by
        rw [State.simple, childEq]
        rfl
      simp only [Simple.childStep, childAt, Simple.write, if_neg fails]
  | writeWord word caller =>
      have childAt : (state.simple sent).child = .writeWord word caller := by
        rw [State.simple, childEq]
        rfl
      simp only [Simple.childStep, childAt, Simple.write, if_neg fails]
  | _ =>
      rw [childEq] at writes
      cases writes

/-- A read that the synchronized pipe makes. -/
theorem read_simple {state : State} {sent : List (List UInt8)} (wanted : Nat)
    (ready : state.pipe = [] → state.hasWriter = false) :
    Simple.read (state.simple sent) wanted =
      some (state.pipe.take wanted, state.pipe.drop wanted) := by
  rw [Simple.read, hasWriter_simple]
  exact pullUpTo_eq_some.mpr ⟨ready, rfl, rfl⟩

/-! ## Step by step -/

variable {capacity : Nat} {state next : State} {above : Simple.State}

/-- The simple pipe answers a step of the child. -/
theorem Mirrors.childStep (mirrors : Mirrors state above)
    (stepped : Synchronized.childStep capacity state = some next) :
    (∃ answer, Succ (Simple.step capacity) above answer ∧ Mirrors next answer) ∨
      Mirrors next above ∧ next.rank < state.rank := by
  rcases mirrors with ⟨same, sent⟩
  -- The answer is the step of the child that is left without the semaphores.
  have answers {more : List (List UInt8)}
      (moved : Simple.childStep capacity (state.simple above.sent) =
        some (next.simple (above.sent ++ more)))
      (counts : (above.sent ++ more).length = next.written) :
      ∃ answer, Succ (Simple.step capacity) above answer ∧ Mirrors next answer := by
    refine ⟨next.simple (above.sent ++ more), ⟨.child, ?_⟩, rfl, counts⟩
    rw [same]
    exact moved
  have silent (moved : Simple.childStep capacity (state.simple above.sent) =
        some (next.simple above.sent)) (counts : state.written = next.written) :
      ∃ answer, Succ (Simple.step capacity) above answer ∧ Mirrors next answer := by
    apply @answers []
    · rw [moved, List.append_nil]
    · rw [List.append_nil, sent, counts]
  have loud {word : List UInt8} (moved : Simple.childStep capacity (state.simple above.sent) =
        some (next.simple (above.sent ++ [word]))) (counts : next.written = state.written + 1) :
      ∃ answer, Succ (Simple.step capacity) above answer ∧ Mirrors next answer := by
    apply answers moved
    rw [List.length_append, List.length_singleton, sent, counts]
  cases childStep_moves stepped with
  | opens childEq =>
      left
      apply silent _ rfl
      simp [Simple.childStep, State.simple, childEq, Child.simple]
  | @reads file word childEq =>
      left
      have childAt : (state.simple above.sent).child = .reading file word := by
        rw [State.simple, childEq]
        rfl
      apply silent _ rfl
      rw [Simple.childStep_reading childAt]
      simp only [State.simple, simple_resume]
      rfl
  | breaks writes noReader =>
      left
      apply silent _ rfl
      exact childStep_breaks writes noReader
  | @begins word caller childEq nonempty reader room =>
      left
      have childAt : (state.simple above.sent).child = .writeLength word caller := by
        rw [State.simple, childEq]
        rfl
      apply silent _ rfl
      simp only [Simple.childStep, childAt]
      rw [write_simple reader room, if_pos (List.length_pos_iff.mpr nonempty)]
      rfl
  | @terminates caller childEq reader room =>
      left
      have childAt : (state.simple above.sent).child = .writeLength [] caller := by
        rw [State.simple, childEq]
        rfl
      apply @loud [] _ rfl
      simp only [Simple.childStep, childAt]
      rw [write_simple reader room]
      rfl
  | @sends word caller childEq reader room =>
      left
      have childAt : (state.simple above.sent).child = .writeWord word caller := by
        rw [State.simple, childEq]
        rfl
      apply @loud word _ rfl
      simp only [Simple.childStep, childAt]
      rw [write_simple reader room]
      rfl
  | posts childEq =>
      right
      refine ⟨⟨same.trans ?_, sent⟩, ?_⟩
      · simp [State.simple, childEq, Child.simple]
      · simp [State.rank, childEq]
  | @waits caller semChild childEq waited =>
      right
      refine ⟨⟨same.trans ?_, sent⟩, ?_⟩
      · simp only [State.simple, childEq, simple_afterSend]
        rfl
      · cases caller <;> simp [State.rank, childEq, afterSend]
  | exits childEq =>
      left
      apply silent _ rfl
      simp [Simple.childStep, State.simple, childEq, Child.simple]

/-- The simple pipe answers a step of the parent. -/
theorem Mirrors.parentStep (mirrors : Mirrors state above)
    (stepped : Synchronized.parentStep state = some next) :
    (∃ answer, Succ (Simple.step capacity) above answer ∧ Mirrors next answer) ∨
      Mirrors next above ∧ next.rank < state.rank := by
  rcases mirrors with ⟨same, sent⟩
  have answers (moved : Simple.parentStep (state.simple above.sent) =
        some (next.simple above.sent)) (counts : state.written = next.written) :
      ∃ answer, Succ (Simple.step capacity) above answer ∧ Mirrors next answer := by
    refine ⟨next.simple above.sent, ⟨.parent, ?_⟩, rfl, sent.trans counts⟩
    rw [same]
    exact moved
  cases parentStep_moves stepped with
  | opens parentEq =>
      left
      apply answers _ rfl
      simp [Simple.parentStep, State.simple, parentEq, Parent.simple]
  | waits parentEq waited =>
      right
      refine ⟨⟨same.trans ?_, sent⟩, ?_⟩
      · simp [State.simple, parentEq, Parent.simple]
      · simp [State.rank, parentEq]
  | readsLength parentEq ready =>
      left
      have parentAt : (state.simple above.sent).parent = .readLength := by
        rw [State.simple, parentEq]
        rfl
      apply answers _ rfl
      simp only [Simple.parentStep, parentAt]
      rw [read_simple 1 ready]
      simp only [State.simple, Option.map_some, apply_ite Parent.simple]
      rfl
  | readsWord parentEq ready =>
      left
      have parentAt : (state.simple above.sent).parent = .readWord := by
        rw [State.simple, parentEq]
        rfl
      apply answers _ rfl
      simp only [Simple.parentStep, parentAt]
      rw [read_simple _ ready]
      rfl
  | prints parentEq =>
      left
      apply answers _ rfl
      simp [Simple.parentStep, State.simple, parentEq, Parent.simple]
  | posts parentEq =>
      right
      refine ⟨⟨same.trans ?_, sent⟩, ?_⟩
      · simp [State.simple, parentEq, Parent.simple]
      · simp [State.rank, parentEq]
  | exits parentEq =>
      left
      apply answers _ rfl
      simp [Simple.parentStep, State.simple, parentEq, Parent.simple]

/-- The simple pipe simulates the synchronized one. -/
theorem mirrors_simulates (capacity : Nat) :
    Simulates (step capacity) (Simple.step capacity) Mirrors State.rank := by
  intro state above action successor mirrors stepped
  cases action with
  | child => exact mirrors.childStep stepped
  | parent => exact mirrors.parentStep stepped

theorem mirrors_initial {semParent semChild : Nat} {file word : List UInt8} {length : UInt8} :
    Mirrors (initial semParent semChild file length word) (Simple.initial file length word) :=
  ⟨rfl, rfl⟩

end CExamples.Pipe.Synchronized
