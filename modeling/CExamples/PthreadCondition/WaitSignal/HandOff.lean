import CExamples.PthreadCondition.WaitSignal.Core

/-!
# Words handed over in order

The parent gives `word_ready` back before it reads the slot, and the child may
store its next word in between.  As long as it does not store another word there,
the arguments of all calls of `send_word` are, in this order, the printed words,
the word that the parent has taken, the word that is offered and the words not
sent yet.
-/

namespace CExamples.PthreadCondition.WaitSignal

open CExamples.Transition
open CExamples.Word

/-- The arguments of all calls of `send_word`. -/
def calls (words : List Token) : List (Option Token) :=
  words.map some ++ [none]

/-- The arguments that the child has not stored yet. -/
def Child.unsent : Child → List (Option Token)
  | .sendWord _ (some word) later => some word :: calls later
  | .sendWord _ none _ => [none]
  | .exited => []

@[simp]
theorem Child.unsent_next (words : List Token) : (Child.next words).unsent = calls words := by
  cases words <;> rfl

@[simp]
theorem Child.unsent_wake (child : Child) : child.wake.unsent = child.unsent := by
  rcases child with ⟨position, _ | word, later⟩ | _ <;> rfl

/-- The word that the parent has taken and not printed. -/
def Parent.taken (sharedWord : Option Token) : Parent → List (Option Token)
  | .receive _ => []
  | .readWord => [sharedWord]
  | .exited => [none]

@[simp]
theorem Parent.taken_wake (sharedWord : Option Token) (parent : Parent) :
    parent.wake.taken sharedWord = parent.taken sharedWord := by
  cases parent <;> rfl

/-- The word that is ready to be taken. -/
def State.offered (state : State) : List (Option Token) :=
  if state.wordReady then [state.sharedWord] else []

/-- No word is lost, repeated or out of order. -/
def HandsOver (words : List Token) (state : State) : Prop :=
  calls words = state.printed.map some ++
    (state.parent.taken state.sharedWord ++ (state.offered ++ state.child.unsent))

/-- The child stores another word over the one that the parent has yet to read. -/
def overwrites (state : State) (action : Action) : Bool :=
  match action, state.child with
  | .move .child, .sendWord .critical word _ =>
      state.parent = .readWord && !state.wordReady && word ≠ state.sharedWord
  | _, _ => false

theorem overwrites_eq_true {state : State} :
    overwrites state (.move .child) = true ↔
      ∃ word later, state.child = .sendWord .critical word later ∧ state.parent = .readWord ∧
        state.wordReady = false ∧ word ≠ state.sharedWord := by
  cases childEq : state.child with
  | sendWord position word later => cases position <;> simp [overwrites, childEq, and_assoc]
  | exited => simp [overwrites, childEq]

/-! ## Steps -/

section Steps

variable {words : List Token} {state after : State}

theorem handsOver_initial (words : List Token) : HandsOver words (initial words) := by
  simp [HandsOver, initial, Parent.taken, State.offered]

/-- The critical section of `send_word`, unless it overwrites a word. -/
theorem HandsOver.sendWord (handsOver : HandsOver words state) {word : Option Token}
    {later : List Token} (childEq : state.child = .sendWord .critical word later)
    (quiet : overwrites state (.move .child) = false) :
    HandsOver words (state.sendWord word later) := by
  rw [HandsOver, childEq] at handsOver
  unfold State.sendWord
  split
  · cases word <;> exact handsOver
  · rename_i notReady
    have same : state.parent.wake.taken word = state.parent.taken state.sharedWord := by
      rw [Parent.taken_wake]
      cases parentEq : state.parent with
      | readWord =>
          simp only [overwrites, childEq, parentEq, notReady] at quiet
          rw [show word = state.sharedWord by simpa using quiet]
      | _ => rfl
    rw [State.offered, if_neg notReady, List.nil_append] at handsOver
    rw [HandsOver, handsOver, same]
    cases word with
    | none => rfl
    | some word =>
        rw [Child.unsent_next]
        rfl

/-- The critical section of `parent_process`. -/
theorem HandsOver.receive (handsOver : HandsOver words state)
    (parentEq : state.parent = .receive .critical) : HandsOver words state.receive := by
  rw [HandsOver, parentEq] at handsOver
  unfold State.receive
  split
  · rename_i ready
    rw [State.offered, if_pos ready] at handsOver
    rw [HandsOver, handsOver, Child.unsent_wake]
    rfl
  · exact handsOver

/-- A step that overwrites no word. -/
theorem HandsOver.step {action : Action} (handsOver : HandsOver words state)
    (quiet : overwrites state action = false) (stepped : step state action = some after) :
    HandsOver words after := by
  rcases action with ⟨_ | _⟩ | thread
  · obtain ⟨position, word, later, childEq, moved⟩ := childStep_cases stepped
    rcases moved with ⟨_, _, rfl⟩ | ⟨rfl, rfl⟩
    · rw [HandsOver, childEq] at handsOver
      cases word <;> exact handsOver
    · exact handsOver.sendWord childEq quiet
  · rcases parentStep_cases stepped with ⟨position, parentEq, moved⟩ | ⟨parentEq, moved⟩
    · rcases moved with ⟨_, _, rfl⟩ | ⟨rfl, rfl⟩
      · rw [HandsOver, parentEq] at handsOver
        exact handsOver
      · exact handsOver.receive parentEq
    · rw [HandsOver, parentEq] at handsOver
      rcases moved with ⟨empty, rfl⟩ | ⟨word, slot, rfl⟩
      · rw [empty] at handsOver
        rw [HandsOver, handsOver]
        simp only [State.offered, empty]
        rfl
      · rw [HandsOver, handsOver, List.map_append, List.append_assoc, slot]
        simp only [State.offered, slot]
        rfl
  · rcases wake_cases stepped with rfl | rfl
    · rw [HandsOver, Child.unsent_wake]
      exact handsOver
    · rw [HandsOver, Parent.taken_wake]
      exact handsOver

end Steps

/-! ## Runs -/

/-- `NULL` is the last argument. -/
theorem eq_of_calls_eq {words printed : List Token} {rest : List (Option Token)}
    (split : calls words = printed.map some ++ none :: rest) : printed = words ∧ rest = [] := by
  induction printed generalizing words with
  | nil =>
      cases words with
      | nil => exact ⟨rfl, by simpa [calls, eq_comm] using split⟩
      | cons word words => simp [calls] at split
  | cons first printed ih =>
      cases words with
      | nil => simp [calls] at split
      | cons word words =>
          simp only [calls, List.map_cons, List.cons_append, List.cons.injEq,
            Option.some.injEq] at split
          obtain ⟨sameTail, empty⟩ := ih split.2
          exact ⟨by rw [split.1, sameTail], empty⟩

/-- What was printed is a beginning of the words. -/
theorem HandsOver.inOrder {words : List Token} {state : State}
    (handsOver : HandsOver words state) : state.printed <+: words := by
  have filtered := congrArg (List.filterMap id) handsOver
  simp only [calls, List.filterMap_append, List.filterMap_map] at filtered
  exact ⟨_, by simpa using filtered.symm⟩

/-- The state is reached without a word being overwritten. -/
def Undisturbed (words : List Token) (state : State) : Prop :=
  Reachable (restrict step fun state action => overwrites state action = false) (initial words)
    state

theorem Undisturbed.handsOver {words : List Token} {state : State}
    (undisturbed : Undisturbed words state) : HandsOver words state := by
  apply undisturbed.invariant (handsOver_initial words)
  intro before action after handsOver stepped
  obtain ⟨quiet, stepped⟩ := restrict_eq_some_iff.mp stepped
  exact handsOver.step quiet stepped

/-- The state in which both threads have ended. -/
def ended (printed : List Token) : State where
  mutex := none
  wordReady := false
  sharedWord := none
  child := .exited
  parent := .exited
  printed := printed

/-- The schedule in which the child sends one word and the parent then prints it,
`count` times. -/
def turns (count : Nat) : List Action :=
  (List.replicate count [Action.move .child, .move .child, .move .parent, .move .parent,
    .move .parent]).flatten

/-- A word stored over the one before it is lost: after the next step of the parent
the printed words are no beginning of the words, or both threads have ended before
all words were printed. -/
theorem overwritten_lost {words : List Token} {state stored read : State}
    (undisturbed : Undisturbed words state) (disturbed : overwrites state (.move .child) = true)
    (store : step state (.move .child) = some stored)
    (parentRead : step stored (.move .parent) = some read) :
    Reachable step (initial words) read ∧
      (¬read.printed <+: words ∨
        read.child = .exited ∧ read.parent = .exited ∧ read.printed ≠ words) := by
  refine ⟨(undisturbed.of_restrict.tail store).tail parentRead, ?_⟩
  have handsOver := undisturbed.handsOver
  obtain ⟨word, later, childEq, parentEq, notReady, differs⟩ :=
    overwrites_eq_true.mp disturbed
  have storedEq : stored = state.sendWord word later := by
    rw [step, childStep, childEq] at store
    exact (Option.some.inj store).symm
  subst storedEq
  rw [HandsOver, parentEq, childEq, State.offered, notReady] at handsOver
  cases word with
  | none =>
      apply Or.inr
      simp only [State.sendWord, notReady, parentEq, step, parentStep, Parent.wake] at parentRead
      cases parentRead
      refine ⟨rfl, rfl, fun all => ?_⟩
      have counts := congrArg List.length handsOver
      rw [show state.printed = words from all] at counts
      simp [calls, Parent.taken, Child.unsent] at counts
  | some word =>
      apply Or.inl
      simp only [State.sendWord, notReady, parentEq, step, parentStep, Parent.wake] at parentRead
      cases parentRead
      rintro ⟨rest, rfl⟩
      rw [calls, List.map_append, List.map_append, List.append_assoc,
        List.append_assoc] at handsOver
      have next := List.append_cancel_left handsOver
      exact differs (List.cons.inj next).1

end CExamples.PthreadCondition.WaitSignal
