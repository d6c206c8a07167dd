import Mathlib.Data.List.Basic

/-!
# Programs that may halt abnormally

A C function that performs calls is a state transformer which either returns a
value or halts: it exits, it waits for a call that has not returned yet, it
uses an index outside an array, or a bounded loop runs out of its bound.  The
state at the halt is kept.

`wp` is the weakest precondition of such a program for a postcondition on the
returned value and one on the reason for halting.  Its equations let a program
be executed symbolically, and each loop has one rule, by an invariant and a
variant.
-/

namespace CExamples.Program

universe u

/-- Why a program stops before it returns; `κ` names the calls that can wait. -/
inductive Halt (κ : Type u) : Type u
  | exit (status : Nat) (message : String)
  | blocked (call : κ)
  | fault
  | fuel
  deriving DecidableEq, Repr

/-- Programs over the state `σ` that may halt. -/
abbrev Prog (κ σ α : Type u) := EStateM (Halt κ) σ α

variable {κ σ α β : Type u}

/-- The state in which a run ends, however it ends. -/
def finalState : EStateM.Result (Halt κ) σ α → σ
  | .ok _ state => state
  | .error _ state => state

/-- From `state`, the program returns with `post` or halts with `halt`. -/
def wp (prog : Prog κ σ α) (post : α → σ → Prop) (halt : Halt κ → σ → Prop)
    (state : σ) : Prop :=
  match prog state with
  | .ok value next => post value next
  | .error reason next => halt reason next

section Rules

variable {post : α → σ → Prop} {halt : Halt κ → σ → Prop} {state : σ}

theorem wp_of_ok {prog : Prog κ σ α} {value : α} {next : σ}
    (run : prog state = .ok value next) : wp prog post halt state ↔ post value next := by
  simp only [wp, run]

theorem wp_of_error {prog : Prog κ σ α} {reason : Halt κ} {next : σ}
    (run : prog state = .error reason next) : wp prog post halt state ↔ halt reason next := by
  simp only [wp, run]

@[simp]
theorem wp_pure (value : α) : wp (pure value) post halt state ↔ post value state :=
  Iff.rfl

@[simp]
theorem wp_throw (reason : Halt κ) :
    wp (throw reason : Prog κ σ α) post halt state ↔ halt reason state :=
  Iff.rfl

@[simp]
theorem wp_get {post : σ → σ → Prop} :
    wp (get : Prog κ σ σ) post halt state ↔ post state state :=
  Iff.rfl

@[simp]
theorem wp_set {post : PUnit → σ → Prop} (next : σ) :
    wp (set next : Prog κ σ PUnit) post halt state ↔ post ⟨⟩ next :=
  Iff.rfl

@[simp]
theorem wp_modify {post : PUnit → σ → Prop} (update : σ → σ) :
    wp (modify update : Prog κ σ PUnit) post halt state ↔ post ⟨⟩ (update state) :=
  Iff.rfl

@[simp]
theorem wp_bind {prog : Prog κ σ β} {rest : β → Prog κ σ α} :
    wp (prog >>= rest) post halt state ↔
      wp prog (fun value next => wp (rest value) post halt next) halt state := by
  change wp (EStateM.bind prog rest) post halt state ↔ _
  simp only [wp, EStateM.bind]
  cases prog state <;> rfl

@[simp]
theorem wp_map {prog : Prog κ σ β} (f : β → α) :
    wp (f <$> prog) post halt state ↔
      wp prog (fun value next => post (f value) next) halt state := by
  change wp (EStateM.map f prog) post halt state ↔ _
  simp only [wp, EStateM.map]
  cases prog state <;> rfl

/-- The rule of consequence. -/
theorem wp_mono {prog : Prog κ σ α} {post' : α → σ → Prop} {halt' : Halt κ → σ → Prop}
    (run : wp prog post halt state)
    (returned : ∀ value next, post value next → post' value next)
    (halted : ∀ reason next, halt reason next → halt' reason next) :
    wp prog post' halt' state := by
  unfold wp at run ⊢
  cases result : prog state with
  | ok value next =>
      rw [result] at run
      exact returned value next run
  | error reason next =>
      rw [result] at run
      exact halted reason next run

/-- The rule of consequence for what a program returns. -/
theorem wp_conseq {prog : Prog κ σ α} {post' : α → σ → Prop} (run : wp prog post halt state)
    (returned : ∀ value next, post value next → post' value next) : wp prog post' halt state :=
  wp_mono run returned fun _ _ halted => halted

/-- The rule of composition. -/
theorem wp_seq {prog : Prog κ σ β} {rest : β → Prog κ σ α} {between : β → σ → Prop}
    (first : wp prog between halt state)
    (second : ∀ value next, between value next → wp (rest value) post halt next) :
    wp (prog >>= rest) post halt state :=
  wp_bind.mpr (wp_conseq first second)

/-- A property that holds however the program ends holds of its final state. -/
theorem finalState_of_wp {prog : Prog κ σ α} {property : σ → Prop}
    (run : wp prog (fun _ next => property next) (fun _ next => property next) state) :
    property (finalState (prog state)) := by
  unfold wp at run
  cases result : prog state with
  | ok value next => simpa [result, finalState] using run
  | error reason next => simpa [result, finalState] using run

end Rules

/-! ## Loops -/

/-- Repeat `body` until it yields a result on the right; a loop still running
after `fuel` rounds halts with `Halt.fuel`. -/
def loop (body : β → Prog κ σ (β ⊕ α)) : Nat → β → Prog κ σ α
  | 0, _ => throw .fuel
  | fuel + 1, locals => body locals >>= Sum.elim (loop body fuel) pure

/-- One round of a loop that keeps `inv` and lowers `variant`, or ends in
`post`. -/
def Round (body : β → Prog κ σ (β ⊕ α)) (inv : β → σ → Prop) (variant : β → σ → Nat)
    (post : α → σ → Prop) (halt : Halt κ → σ → Prop) : Prop :=
  ∀ locals state, inv locals state →
    wp (body locals)
      (Sum.elim (fun locals' state' => inv locals' state' ∧
        variant locals' state' < variant locals state) post)
      halt state

/-- Total correctness of a loop: with more fuel than the variant it never runs
out. -/
theorem wp_loop {body : β → Prog κ σ (β ⊕ α)} {inv : β → σ → Prop}
    {variant : β → σ → Nat} {post : α → σ → Prop} {halt : Halt κ → σ → Prop}
    (round : Round body inv variant post halt) {fuel : Nat} {locals : β} {state : σ}
    (initial : inv locals state) (enough : variant locals state < fuel) :
    wp (loop body fuel locals) post halt state := by
  induction fuel generalizing locals state with
  | zero => omega
  | succ fuel ih =>
      rw [loop]
      apply wp_seq (round locals state initial)
      rintro (locals' | value) next reached
      · obtain ⟨kept, lower⟩ := reached
        exact ih kept (by omega)
      · exact reached

/-- Partial correctness of a loop: running out of fuel is one more way to
halt. -/
theorem wp_loop_partial {body : β → Prog κ σ (β ⊕ α)} {inv : β → σ → Prop}
    {post : α → σ → Prop} {halt : Halt κ → σ → Prop}
    (round : ∀ locals state, inv locals state →
      wp (body locals) (Sum.elim inv post) halt state)
    (exhausted : ∀ locals state, inv locals state → halt .fuel state)
    (fuel : Nat) {locals : β} {state : σ} (initial : inv locals state) :
    wp (loop body fuel locals) post halt state := by
  induction fuel generalizing locals state with
  | zero => exact exhausted locals state initial
  | succ fuel ih =>
      rw [loop]
      apply wp_seq (round locals state initial)
      rintro (locals' | value) next reached
      · exact ih reached
      · exact reached

/-- Run `body` for `count` consecutive indices from `index` on, as a counting
`for` loop does. -/
def forRange (body : Nat → β → Prog κ σ β) : (count index : Nat) → β → Prog κ σ β
  | 0, _, locals => pure locals
  | count + 1, index, locals => do
      let locals ← body index locals
      forRange body count (index + 1) locals

/-- The rule of a counting loop. -/
theorem wp_forRange {body : Nat → β → Prog κ σ β} {inv : Nat → β → σ → Prop}
    {halt : Halt κ → σ → Prop} (count index : Nat) {locals : β} {state : σ}
    (initial : inv index locals state)
    (round : ∀ i locals state, index ≤ i → i < index + count → inv i locals state →
      wp (body i locals) (inv (i + 1)) halt state) :
    wp (forRange body count index locals) (inv (index + count)) halt state := by
  induction count generalizing index locals state with
  | zero => exact initial
  | succ count ih =>
      rw [forRange]
      apply wp_seq (round index locals state (Nat.le_refl _) (by omega) initial)
      intro locals' next reached
      have rest := ih (index + 1) reached fun i locals state low high kept =>
        round i locals state (by omega) (by omega) kept
      rwa [show index + 1 + count = index + (count + 1) by omega] at rest

end CExamples.Program
