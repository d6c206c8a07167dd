import CExamples.Program.Core

/-!
# Loops over a source of items

A `while` loop that calls a function until it returns nothing, and deals with each
item that it returns, deals with the items of the source in order.
-/

namespace CExamples.Program

universe u

variable {κ σ β γ : Type u}

/-- Deal with the items that `next` takes from a source. -/
def each (next : β → Option (γ × β)) (service : γ → Prog κ σ PUnit) :
    Nat → β → Prog κ σ PUnit :=
  loop fun source =>
    match next source with
    | none => pure (.inr ⟨⟩)
    | some (item, rest) => do
        service item
        pure (.inl rest)

/-- `next` takes the `items` of a source one by one, and the source becomes smaller. -/
structure Streams (next : β → Option (γ × β)) (items : β → List γ) (size : β → Nat) : Prop where
  ended : ∀ source, next source = none → items source = []
  taken : ∀ source item rest, next source = some (item, rest) →
    items source = item :: items rest ∧ size rest < size source

/-- The loop deals with all items in order. -/
theorem Streams.each_eq {next : β → Option (γ × β)} {items : β → List γ} {size : β → Nat}
    (streams : Streams next items size) (service : γ → Prog κ σ PUnit) {fuel : Nat} {source : β}
    (enough : size source < fuel) :
    each next service fuel source = (items source).forM service := by
  induction fuel generalizing source with
  | zero => cases enough
  | succ fuel ih =>
      rw [each, loop]
      cases taken : next source with
      | none =>
          rw [streams.ended source taken]
          rfl
      | some result =>
          obtain ⟨item, rest⟩ := result
          obtain ⟨itemsEq, smaller⟩ := streams.taken source item rest taken
          have later : each next service fuel rest = (items rest).forM service := ih (by omega)
          rw [itemsEq, List.forM, ← later]
          simp only [bind_assoc, pure_bind, Sum.elim_inl]
          rfl

/-- Dealing with a list of items when each adds to a log. -/
theorem forM_eq_ok {items : List γ} {service : γ → Prog κ (List β) PUnit} {entries : γ → List β}
    (logs : ∀ item ∈ items, ∀ log, service item log = .ok ⟨⟩ (log ++ entries item))
    (log : List β) : items.forM service log = .ok ⟨⟩ (log ++ items.flatMap entries) := by
  induction items generalizing log with
  | nil => rw [List.flatMap_nil, List.append_nil]; rfl
  | cons item items ih =>
      have first := logs item List.mem_cons_self log
      have rest := ih (fun other member => logs other (List.mem_cons_of_mem item member))
        (log ++ entries item)
      rw [List.flatMap_cons, ← List.append_assoc, ← rest]
      change EStateM.bind (service item) (fun _ => items.forM service) log = _
      rw [EStateM.bind, first]

end CExamples.Program
