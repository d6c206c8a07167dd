/-!
# Loops, pass by pass

A pass of a loop goes on with another state or leaves the loop with a result.  The loop is
run with fuel for its passes, and it is left if some fuel is enough.  An invariant with a
variant shows that it is left, and an invariant that no pass leaves shows that it is not.
A loop that takes items from a source until there are none deals with all of them.
-/

namespace CExamples.Program

universe u v

/-- What one pass of a loop does. -/
inductive Pass (σ : Type u) (ρ : Type v)
  | again (state : σ)
  | left (result : ρ)

variable {σ : Type u} {ρ : Type v} {pass : σ → Pass σ ρ}

/-- At most `fuel` passes of a loop. -/
def passes (pass : σ → Pass σ ρ) : (fuel : Nat) → σ → Option ρ
  | 0, _ => none
  | fuel + 1, state =>
      match pass state with
      | .again after => passes pass fuel after
      | .left result => some result

/-- The loop is left with `result`. -/
def Leaves (pass : σ → Pass σ ρ) (state : σ) (result : ρ) : Prop :=
  ∃ fuel, passes pass fuel state = some result

theorem Leaves.left {state : σ} {result : ρ} (passed : pass state = .left result) :
    Leaves pass state result := by
  refine ⟨1, ?_⟩
  rw [passes, passed]

theorem Leaves.again {state after : σ} {result : ρ} (passed : pass state = .again after)
    (leaves : Leaves pass after result) : Leaves pass state result := by
  rcases leaves with ⟨fuel, run⟩
  refine ⟨fuel + 1, ?_⟩
  rw [passes, passed]
  exact run

/-- From two states with the same pass the loop does the same. -/
theorem Leaves.congr {state other : σ} {result : ρ} (same : pass state = pass other)
    (leaves : Leaves pass other result) : Leaves pass state result := by
  rcases leaves with ⟨_ | fuel, run⟩
  · cases run
  · refine ⟨fuel + 1, ?_⟩
    rw [passes, same]
    rw [passes] at run
    exact run

/-- A loop is left with one result. -/
theorem Leaves.unique {state : σ} {result other : ρ} (leaves : Leaves pass state result)
    (again : Leaves pass state other) : result = other := by
  rcases leaves with ⟨fuel, run⟩
  rcases again with ⟨more, rerun⟩
  induction fuel generalizing state more with
  | zero => cases run
  | succ fuel ih =>
      cases more with
      | zero => cases rerun
      | succ more =>
          rw [passes] at run rerun
          cases passed : pass state with
          | again after =>
              rw [passed] at run rerun
              exact ih run more rerun
          | left last =>
              rw [passed] at run rerun
              exact Option.some.inj (run.symm.trans rerun)

/-- A loop is left if its passes keep an invariant and decrease a number. -/
theorem exists_leaves {inv : σ → Prop} {post : ρ → Prop} (variant : σ → Nat)
    (round : ∀ state, inv state →
      (∃ result, pass state = .left result ∧ post result) ∨
        ∃ after, pass state = .again after ∧ inv after ∧ variant after < variant state)
    {state : σ} (initial : inv state) : ∃ result, Leaves pass state result ∧ post result := by
  have bounded (bound : Nat) : ∀ state, inv state → variant state < bound →
      ∃ result, Leaves pass state result ∧ post result := by
    induction bound with
    | zero => exact fun state _ below => absurd below (Nat.not_lt_zero _)
    | succ bound ih =>
        intro state kept below
        rcases round state kept with ⟨result, passed, holds⟩ | ⟨after, passed, kept, less⟩
        · exact ⟨result, Leaves.left passed, holds⟩
        · rcases ih after kept (Nat.lt_of_lt_of_le less (Nat.le_of_lt_succ below)) with
            ⟨result, leaves, holds⟩
          exact ⟨result, Leaves.again passed leaves, holds⟩
  exact bounded _ state initial (Nat.lt_succ_self _)

/-- A loop is never left from a state with an invariant under which every pass goes on. -/
theorem not_leaves {inv : σ → Prop}
    (round : ∀ state, inv state → ∃ after, pass state = .again after ∧ inv after)
    {state : σ} (initial : inv state) (result : ρ) : ¬Leaves pass state result := by
  rintro ⟨fuel, run⟩
  induction fuel generalizing state with
  | zero => cases run
  | succ fuel ih =>
      rcases round state initial with ⟨after, passed, kept⟩
      rw [passes, passed] at run
      exact ih kept run

/-! ## Sources -/

section Drain

variable {β : Type u} {τ : Type v} {next : σ → Option β × σ} {ahead : σ → List β}
  {inv closed : σ → Prop}

/-- A pass that takes an item from a source and deals with it, or leaves when there is
none. -/
def drain (next : σ → Option β × σ) (emit : τ → β → τ) (state : σ × τ) : Pass (σ × τ) (σ × τ) :=
  match next state.1 with
  | (some item, rest) => .again (rest, emit state.2 item)
  | (none, rest) => .left (rest, state.2)

/-- `next` takes the items that are ahead in a source, which is closed behind them. -/
structure Feeds (next : σ → Option β × σ) (ahead : σ → List β) (inv closed : σ → Prop) :
    Prop where
  ended : ∀ source rest, inv source → next source = (none, rest) →
    ahead source = [] ∧ closed rest
  taken : ∀ source item rest, inv source → next source = (some item, rest) →
    ahead source = item :: ahead rest ∧ inv rest

/-- The loop deals with all items in order. -/
theorem Feeds.passes_drain (feeds : Feeds next ahead inv closed) (emit : τ → β → τ) {fuel : Nat}
    {source : σ} (initial : inv source) (enough : (ahead source).length < fuel) (target : τ) :
    ∃ rest, passes (drain next emit) fuel (source, target) =
        some (rest, (ahead source).foldl emit target) ∧ closed rest := by
  induction fuel generalizing source target with
  | zero => cases enough
  | succ fuel ih =>
      rcases result : next source with ⟨_ | item, rest⟩
      · have ended := feeds.ended source rest initial result
        refine ⟨rest, ?_, ended.2⟩
        rw [passes, drain, result, ended.1]
        rfl
      · have taken := feeds.taken source item rest initial result
        rw [taken.1, List.length_cons] at enough
        rcases ih taken.2 (Nat.lt_of_succ_lt_succ enough) (emit target item) with
          ⟨last, later, ended⟩
        refine ⟨last, ?_, ended⟩
        rw [passes, drain, result, taken.1]
        exact later

/-- A pass that leaves when a flag is up, and otherwise takes an item if there is one. -/
def drainUntil (flag : σ → Bool) (next : σ → Option β × σ) (emit : τ → β → τ) (state : σ × τ) :
    Pass (σ × τ) (σ × τ) :=
  if flag state.1 then .left state
  else
    match next state.1 with
    | (some item, rest) => .again (rest, emit state.2 item)
    | (none, rest) => .again (rest, state.2)

/-- Where the flag goes up behind the items, and not before, the loop deals with all of
them. -/
theorem Feeds.leaves_drainUntil (feeds : Feeds next ahead inv closed) {flag : σ → Bool}
    (raised : ∀ source, closed source → flag source = true)
    (last : ∀ source, inv source → flag source = true → ahead source = [])
    (emit : τ → β → τ) {source : σ} (initial : inv source) (target : τ) :
    ∃ rest, Leaves (drainUntil flag next emit) (source, target)
      (rest, (ahead source).foldl emit target) := by
  induction items : ahead source generalizing source target with
  | nil =>
      by_cases up : flag source = true
      · exact ⟨source, Leaves.left (by rw [drainUntil, if_pos up]; rfl)⟩
      · rcases result : next source with ⟨_ | item, rest⟩
        · have ended := feeds.ended source rest initial result
          have passed : drainUntil flag next emit (source, target) = .again (rest, target) := by
            simp only [drainUntil, if_neg up, result]
          refine ⟨rest, Leaves.again passed (Leaves.left ?_)⟩
          simp only [drainUntil, if_pos (raised rest ended.2)]
          rfl
        · have taken := feeds.taken source item rest initial result
          rw [items] at taken
          cases taken.1
  | cons first items ih =>
      have down : ¬flag source = true := by
        intro up
        rw [last source initial up] at items
        cases items
      rcases result : next source with ⟨_ | item, rest⟩
      · have ended := feeds.ended source rest initial result
        rw [items] at ended
        cases ended.1
      · have taken := feeds.taken source item rest initial result
        rw [items] at taken
        rcases List.cons_eq_cons.mp taken.1 with ⟨rfl, itemsEq⟩
        rcases ih taken.2 (emit target first) itemsEq.symm with ⟨last, leaves⟩
        have passed : drainUntil flag next emit (source, target) =
            .again (rest, emit target first) := by
          simp only [drainUntil, if_neg down, result]
        exact ⟨last, Leaves.again passed leaves⟩

end Drain

end CExamples.Program
