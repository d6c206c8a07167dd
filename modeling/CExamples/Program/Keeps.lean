import CExamples.Program.Array

/-!
# What a program keeps

A property of the state that every part of a program keeps is kept by the whole,
whatever its parts return.  The rules follow the program's syntax.
-/

namespace CExamples.Program

universe u

variable {κ σ α β : Type u}

/-- `prog` leaves `inv` true whatever it returns, and halts only as `halt`
allows. -/
def Keeps (inv : σ → Prop) (halt : Halt κ → σ → Prop) (prog : Prog κ σ α) : Prop :=
  ∀ state, inv state → wp prog (fun _ next => inv next) halt state

/-- Two facts about the ends of a program hold together. -/
theorem wp_and {prog : Prog κ σ α} {state : σ} {post post' : α → σ → Prop}
    {halt halt' : Halt κ → σ → Prop} (first : wp prog post halt state)
    (second : wp prog post' halt' state) :
    wp prog (fun value next => post value next ∧ post' value next)
      (fun reason next => halt reason next ∧ halt' reason next) state := by
  unfold wp at first second ⊢
  cases result : prog state with
  | ok value next =>
      rw [result] at first second
      exact ⟨first, second⟩
  | error reason next =>
      rw [result] at first second
      exact ⟨first, second⟩

namespace Keeps

variable {inv : σ → Prop} {halt : Halt κ → σ → Prop}

theorem pure (value : α) : Keeps inv halt (Pure.pure value : Prog κ σ α) :=
  fun _ holds => holds

theorem throw {reason : Halt κ} (allowed : ∀ state, inv state → halt reason state) :
    Keeps inv halt (MonadExcept.throw reason : Prog κ σ α) :=
  allowed

theorem get : Keeps inv halt (MonadState.get : Prog κ σ σ) :=
  fun _ holds => holds

theorem modify {update : σ → σ} (kept : ∀ state, inv state → inv (update state)) :
    Keeps inv halt (modify update : Prog κ σ PUnit) :=
  kept

theorem bind {prog : Prog κ σ β} {rest : β → Prog κ σ α} (first : Keeps inv halt prog)
    (second : ∀ value, Keeps inv halt (rest value)) : Keeps inv halt (prog >>= rest) := by
  intro state holds
  exact wp_seq (first state holds) second

theorem loop {body : β → Prog κ σ (β ⊕ α)} (round : ∀ locals, Keeps inv halt (body locals))
    (exhausted : ∀ state, inv state → halt .fuel state) (fuel : Nat) (locals : β) :
    Keeps inv halt (Program.loop body fuel locals) := by
  intro state holds
  have keeps (locals : β) (state : σ) (holds : inv state) :
      wp (body locals) (Sum.elim (fun _ next => inv next) fun _ next => inv next) halt state := by
    apply wp_conseq (round locals state holds)
    rintro (locals' | value) next kept
    · exact kept
    · exact kept
  exact wp_loop_partial keeps (fun _ => exhausted) fuel holds

theorem forRange {body : Nat → β → Prog κ σ β} (round : ∀ i locals, Keeps inv halt (body i locals))
    (count index : Nat) (locals : β) :
    Keeps inv halt (Program.forRange body count index locals) := by
  induction count generalizing index locals with
  | zero => exact pure locals
  | succ count ih => exact (round index locals).bind fun locals' => ih (index + 1) locals'

variable (faults : ∀ state, inv state → halt .fault state)

include faults

theorem load (slots : List α) (index : Nat) : Keeps inv halt (load slots index : Prog κ σ α) := by
  unfold Program.load
  split
  · exact pure _
  · exact throw faults

theorem store (slots : List α) (index : Nat) (value : α) :
    Keeps inv halt (store slots index value : Prog κ σ (List α)) := by
  unfold Program.store
  split
  · exact pure _
  · exact throw faults

theorem storeAll (slots : List α) (offset : Nat) (values : List α) :
    Keeps inv halt (storeAll slots offset values : Prog κ σ (List α)) := by
  unfold Program.storeAll
  split
  · exact pure _
  · exact throw faults

end Keeps

end CExamples.Program
