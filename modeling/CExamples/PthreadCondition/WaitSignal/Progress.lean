import CExamples.PthreadCondition.WaitSignal.Core

/-!
# No lost wakeup

The child waits only while the word is ready, the parent only while it is not, and
each wakes the other when it changes that.  The last call of `send_word` leaves
`NULL` in the slot, so the parent does not end before the child, and the child
does not end before there is a word to take.
-/

namespace CExamples.PthreadCondition.WaitSignal

open CExamples.Transition
open CExamples.Word

/-- The thread is in its critical section. -/
def State.Critical (state : State) : Thread → Prop
  | .child => state.child.position = some .critical
  | .parent => state.parent.position = some .critical

/-- What keeps the threads from waiting for each other. -/
structure Alert (state : State) : Prop where
  exclusive : Exclusive state.mutex state.Critical
  childWaits : state.child.position = some .waiting → state.wordReady = true
  parentWaits : state.parent.position = some .waiting → state.wordReady = false
  nullLast : state.sharedWord = none → state.wordReady = true ∨ state.parent = .readWord →
    state.child = .exited
  childExited : state.child = .exited → state.sharedWord = none ∧
    (state.wordReady = true ∨ state.parent = .readWord ∨ state.parent = .exited)
  parentExited : state.parent = .exited → state.child = .exited

namespace Alert

variable {state after : State}

theorem initial (words : List Token) : Alert (initial words) := by
  have running : Child.next words ≠ .exited := by cases words <;> exact nofun
  have locking : (Child.next words).position = some .lock := by cases words <;> rfl
  constructor
  · intro thread
    cases thread
    · simp [WaitSignal.initial, State.Critical, locking]
    · simp [WaitSignal.initial, State.Critical, Parent.position]
  · simp [WaitSignal.initial, locking]
  · simp [WaitSignal.initial]
  · simp [WaitSignal.initial]
  · exact fun exited => absurd exited running
  · exact nofun

/-- The child takes the mutex. -/
theorem childAcquires (alert : Alert state) {position : Position} {word : Option Token}
    {later : List Token} (childEq : state.child = .sendWord position word later)
    (free : state.mutex = none) :
    Alert { state with mutex := some .child, child := .sendWord .critical word later } := by
  refine ⟨alert.exclusive.acquire free rfl ?_, nofun, alert.parentWaits, ?_, nofun, ?_⟩
  · rintro (_ | _) other
    · exact absurd rfl other
    · exact Iff.rfl
  · intro null taken
    exact absurd (alert.nullLast null taken) (by rw [childEq]; exact nofun)
  · intro parentExited
    exact absurd (alert.parentExited parentExited) (by rw [childEq]; exact nofun)

/-- The critical section of `send_word`. -/
theorem sendWord (alert : Alert state) {word : Option Token} {later : List Token}
    (childEq : state.child = .sendWord .critical word later) :
    Alert (state.sendWord word later) := by
  have held : state.Critical .child := by
    rw [State.Critical, childEq]
    rfl
  have parentRuns : state.parent ≠ .exited := by
    intro parentExited
    exact absurd (alert.parentExited parentExited) (by rw [childEq]; exact nofun)
  unfold State.sendWord
  split
  · rename_i ready
    refine ⟨alert.exclusive.release held nofun ?_, fun _ => ready, alert.parentWaits, ?_, nofun,
      fun exited => absurd exited parentRuns⟩
    · rintro (_ | _) other
      · exact absurd rfl other
      · exact Iff.rfl
    · intro null taken
      exact absurd (alert.nullLast null taken) (by rw [childEq]; exact nofun)
  · refine ⟨alert.exclusive.release held ?_ ?_, fun _ => rfl, ?_, ?_, ?_, ?_⟩
    · rcases word with _ | word
      · exact nofun
      · rcases later with _ | _ <;> exact nofun
    · rintro (_ | _) other
      · exact absurd rfl other
      · simp [State.Critical]
    · simp
    · rintro rfl _
      rfl
    · rcases word with _ | word
      · exact fun _ => ⟨rfl, Or.inl rfl⟩
      · rcases later with _ | _ <;> exact nofun
    · exact fun exited => absurd (Parent.wake_eq_exited.mp exited) parentRuns

/-- The parent takes the mutex. -/
theorem parentAcquires (alert : Alert state) {position : Position}
    (parentEq : state.parent = .receive position) (free : state.mutex = none) :
    Alert { state with mutex := some .parent, parent := .receive .critical } := by
  refine ⟨alert.exclusive.acquire free rfl ?_, alert.childWaits, nofun, ?_, ?_, nofun⟩
  · rintro (_ | _) other
    · exact Iff.rfl
    · exact absurd rfl other
  · rintro null (ready | reads)
    · exact alert.nullLast null (Or.inl ready)
    · contradiction
  · intro exited
    obtain ⟨null, ready | reads⟩ := alert.childExited exited
    · exact ⟨null, Or.inl ready⟩
    · rw [parentEq] at reads
      rcases reads with _ | _ <;> contradiction

/-- The critical section of `parent_process`. -/
theorem receive (alert : Alert state) (parentEq : state.parent = .receive .critical) :
    Alert state.receive := by
  have held : state.Critical .parent := by
    rw [State.Critical, parentEq]
    rfl
  unfold State.receive
  split
  · rename_i ready
    refine ⟨alert.exclusive.release held nofun ?_, ?_, nofun, ?_, ?_, nofun⟩
    · rintro (_ | _) other
      · simp [State.Critical]
      · exact absurd rfl other
    · simp
    · intro null _
      exact Child.wake_eq_exited.mpr (alert.nullLast null (Or.inl ready))
    · intro exited
      exact ⟨(alert.childExited (Child.wake_eq_exited.mp exited)).1, Or.inr (Or.inl rfl)⟩
  · rename_i notReady
    refine ⟨alert.exclusive.release held nofun ?_, alert.childWaits, ?_, ?_, ?_, nofun⟩
    · rintro (_ | _) other
      · exact Iff.rfl
      · exact absurd rfl other
    · exact fun _ => Bool.eq_false_iff.mpr notReady
    · rintro null (ready | reads)
      · exact absurd ready notReady
      · contradiction
    · intro exited
      obtain ⟨_, ready | reads⟩ := alert.childExited exited
      · exact absurd ready notReady
      · rw [parentEq] at reads
        rcases reads with _ | _ <;> contradiction

/-- The parent reads the slot. -/
theorem readWord (alert : Alert state) (parentEq : state.parent = .readWord)
    {parent : Parent} {printed : List Token}
    (moved : state.sharedWord = none ∧ parent = .exited ∨
      state.sharedWord ≠ none ∧ parent = .receive .lock) :
    Alert { state with printed := printed, parent := parent } := by
  have outside : state.parent.position = none := by
    rw [parentEq]
    rfl
  have stillOutside : parent.position ≠ some .critical ∧ parent.position ≠ some .waiting := by
    rcases moved with ⟨_, rfl⟩ | ⟨_, rfl⟩ <;> exact ⟨nofun, nofun⟩
  refine ⟨alert.exclusive.congr ?_, alert.childWaits, ?_, ?_, ?_, ?_⟩
  · rintro (_ | _)
    · exact Iff.rfl
    · simp [State.Critical, outside, stillOutside.1]
  · exact fun waits => absurd waits stillOutside.2
  · exact fun null _ => alert.nullLast null (Or.inr parentEq)
  · intro exited
    have null := (alert.childExited exited).1
    rcases moved with ⟨_, rfl⟩ | ⟨word, _⟩
    · exact ⟨null, Or.inr (Or.inr rfl)⟩
    · exact absurd null word
  · rintro rfl
    rcases moved with ⟨null, _⟩ | ⟨_, absurdCase⟩
    · exact alert.nullLast null (Or.inr parentEq)
    · contradiction

/-- A wakeup without a signal. -/
theorem wakes (alert : Alert state) :
    Alert { state with child := state.child.wake } ∧
      Alert { state with parent := state.parent.wake } := by
  constructor
  · refine ⟨alert.exclusive.congr ?_, ?_, alert.parentWaits, ?_, ?_, ?_⟩
    · rintro (_ | _)
      · simp [State.Critical]
      · exact Iff.rfl
    · simp
    · simpa using alert.nullLast
    · simpa using alert.childExited
    · simpa using alert.parentExited
  · refine ⟨alert.exclusive.congr ?_, alert.childWaits, ?_, ?_, ?_, ?_⟩
    · rintro (_ | _)
      · exact Iff.rfl
      · simp [State.Critical]
    · simp
    · simpa using alert.nullLast
    · simpa using alert.childExited
    · simpa using alert.parentExited

theorem step {action : Action} (alert : Alert state) (stepped : step state action = some after) :
    Alert after := by
  rcases action with ⟨_ | _⟩ | thread
  · obtain ⟨position, word, later, childEq, moved⟩ := childStep_cases stepped
    rcases moved with ⟨_, free, rfl⟩ | ⟨rfl, rfl⟩
    · exact alert.childAcquires childEq free
    · exact alert.sendWord childEq
  · rcases parentStep_cases stepped with ⟨position, parentEq, moved⟩ | ⟨parentEq, moved⟩
    · rcases moved with ⟨_, free, rfl⟩ | ⟨rfl, rfl⟩
      · exact alert.parentAcquires parentEq free
      · exact alert.receive parentEq
    · rcases moved with ⟨null, rfl⟩ | ⟨word, slot, rfl⟩
      · exact alert.readWord parentEq (Or.inl ⟨null, rfl⟩)
      · exact alert.readWord parentEq (Or.inr ⟨by rw [slot]; exact nofun, rfl⟩)
  · rcases wake_cases stepped with rfl | rfl
    · exact alert.wakes.1
    · exact alert.wakes.2

/-- The child moves when the mutex is free and it does not wait. -/
theorem child_moves (free : state.mutex = none) (running : state.child ≠ .exited)
    (notWaiting : state.child.position ≠ some .waiting) :
    ∃ thread after, WaitSignal.step state (.move thread) = some after := by
  cases childEq : state.child with
  | sendWord position word later =>
      rw [childEq] at notWaiting
      exact ⟨.child, exists_childStep childEq (fun waits => notWaiting (congrArg some waits))
        (Or.inr free)⟩
  | exited => exact absurd childEq running

/-- The parent moves when the mutex is free and it does not wait. -/
theorem parent_moves (free : state.mutex = none) (running : state.parent ≠ .exited)
    (notWaiting : state.parent.position ≠ some .waiting) :
    ∃ thread after, WaitSignal.step state (.move thread) = some after := by
  cases parentEq : state.parent with
  | receive position =>
      rw [parentEq] at notWaiting
      exact ⟨.parent, exists_parentStep parentEq (fun waits => notWaiting (congrArg some waits))
        (Or.inr free)⟩
  | readWord =>
      refine ⟨.parent, ?_⟩
      rw [WaitSignal.step, parentStep, parentEq]
      cases state.sharedWord <;> exact ⟨_, rfl⟩
  | exited => exact absurd parentEq running

/-- A thread moves without a spurious wakeup unless both have ended. -/
theorem moves (alert : Alert state)
    (running : ¬(state.child = .exited ∧ state.parent = .exited)) :
    ∃ thread after, WaitSignal.step state (.move thread) = some after := by
  cases holder : state.mutex with
  | some thread =>
      have critical := (alert.exclusive thread).mpr holder
      refine ⟨thread, ?_⟩
      cases thread with
      | child =>
          cases childEq : state.child with
          | sendWord position word later =>
              rw [State.Critical, childEq] at critical
              cases critical
              exact exists_childStep childEq nofun (Or.inl rfl)
          | exited =>
              rw [State.Critical, childEq] at critical
              cases critical
      | parent =>
          cases parentEq : state.parent with
          | receive position =>
              rw [State.Critical, parentEq] at critical
              cases critical
              exact exists_parentStep parentEq nofun (Or.inl rfl)
          | _ =>
              rw [State.Critical, parentEq] at critical
              cases critical
  | none =>
      by_cases childWaits : state.child.position = some .waiting
      · have ready := alert.childWaits childWaits
        refine parent_moves holder ?_ ?_
        · intro parentExited
          rw [alert.parentExited parentExited] at childWaits
          cases childWaits
        · intro parentWaits
          rw [alert.parentWaits parentWaits] at ready
          cases ready
      · by_cases childExited : state.child = .exited
        · refine parent_moves holder (fun parentExited => running ⟨childExited, parentExited⟩) ?_
          intro parentWaits
          obtain ⟨_, ready | reads | exited⟩ := alert.childExited childExited
          · rw [alert.parentWaits parentWaits] at ready
            cases ready
          · rw [reads] at parentWaits
            cases parentWaits
          · rw [exited] at parentWaits
            cases parentWaits
        · exact child_moves holder childExited childWaits

end Alert

/-- In every state of every run, a thread waits only while its condition fails, the
two never both wait, and one of them can move until both have ended. -/
theorem reachable_progresses {words : List Token} {state : State}
    (reachable : Reachable step (initial words) state) :
    (state.child.position = some .waiting → state.wordReady = true) ∧
      (state.parent.position = some .waiting → state.wordReady = false) ∧
      ¬(state.child.position = some .waiting ∧ state.parent.position = some .waiting) ∧
      (¬(state.child = .exited ∧ state.parent = .exited) →
        ∃ thread after, step state (.move thread) = some after) := by
  have alert : Alert state := reachable.invariant (Alert.initial words)
    fun _ _ _ alert stepped => alert.step stepped
  refine ⟨alert.childWaits, alert.parentWaits, ?_, alert.moves⟩
  rintro ⟨childWaits, parentWaits⟩
  exact absurd (alert.childWaits childWaits) (by rw [alert.parentWaits parentWaits]; exact nofun)

/-- Before the child has sent its only word the parent waits, and the child can
move. -/
theorem waitingParent_progresses :
    ∃ state, Reachable step (initial [Token.letter 97 (by decide)]) state ∧
      state.parent.position = some .waiting ∧
      ∃ thread after, step state (.move thread) = some after := by
  have run : ∃ state, exec step (initial [Token.letter 97 (by decide)])
      [.move .parent, .move .parent] = some state ∧ state.parent = .receive .waiting :=
    ⟨_, rfl, rfl⟩
  obtain ⟨state, run, parentEq⟩ := run
  refine ⟨state, reachable_of_exec run, by rw [parentEq]; rfl, ?_⟩
  refine (reachable_progresses (reachable_of_exec run)).2.2.2 ?_
  rintro ⟨_, parentExited⟩
  rw [parentEq] at parentExited
  cases parentExited

end CExamples.PthreadCondition.WaitSignal
