import CExamples.Pthread.Joining
import CExamples.Transition.Inevitable
import Mathlib.Algebra.Order.BigOperators.Group.Finset

/-!
# Every process ends

Each step brings the process closer to its end, and no process waits forever, because the
thread that is joined has only its lines to print.
-/

namespace CExamples.Pthread

open CExamples.Transition

variable {numThreads : Nat} {program : Program} {checked : Bool} {state after : State numThreads}

/-! ## How far the end is -/

/-- The steps that a thread has ahead. -/
def Worker.rank (script : List Line) : Worker → Nat
  | .absent => script.length + 1
  | .prints left => left.length + 1
  | .exited _ => 0

/-- The steps that `main` has ahead. -/
def Main.rank (program : Program) (numThreads : Nat) : Main → Nat
  | .create i => numThreads - i + (program.early.length + 3 * numThreads + program.late.length + 4)
  | .early left => left.length + 3 * numThreads + program.late.length + 3
  | .join i => 3 * (numThreads - i) + program.late.length + 2
  | .report i _ => 3 * (numThreads - i) + program.late.length + 1
  | .release i _ => 3 * (numThreads - i) + program.late.length
  | .late left => left.length + 1
  | .returned _ | .killed | .undefined => 0

/-- The steps that are ahead. -/
def State.rank (program : Program) (state : State numThreads) : Nat :=
  state.main.rank program numThreads +
    ∑ thread, (state.worker thread).rank (program.script thread)

section Rank

variable {worker : Fin numThreads → Worker} {thread : Fin numThreads}

/-- A thread that comes closer to its end. -/
theorem sum_update_lt {moved : Worker}
    (lower : moved.rank (program.script thread) < (worker thread).rank (program.script thread)) :
    ∑ other, (Function.update worker thread moved other).rank (program.script other) <
      ∑ other, (worker other).rank (program.script other) := by
  apply Finset.sum_lt_sum
  · intro other _
    by_cases same : other = thread
    · rw [same, Function.update_self]
      exact Nat.le_of_lt lower
    · rw [Function.update_of_ne same]
  · refine ⟨thread, Finset.mem_univ thread, ?_⟩
    rwa [Function.update_self]

theorem Turns.rank_lt {main next : Main} (turns : Turns program worker main next) :
    next.rank program numThreads < main.rank program numThreads := by
  cases turns with
  | created | toJoins | joins | receives | joined | returns =>
      simp only [Main.rank, List.length_nil]
      omega

theorem Says.rank_lt {results : List Result} {line : Line} {main next : Main}
    (written : Says results main line next) :
    next.rank program numThreads < main.rank program numThreads := by
  cases written with
  | early | reports | late =>
      simp only [Main.rank, List.length_cons]
      omega

end Rank

theorem Moves.rank_lt (moves : Moves program checked state after)
    (regular : Regular program checked state) : after.rank program < state.rank program := by
  cases moves with
  | @creates i mainEq inside =>
      have absent := regular.control.uncreated ⟨i, inside⟩ (by rw [mainEq]; exact Nat.le_refl i)
      have same : ∀ thread : Fin numThreads,
          (Function.update state.worker ⟨i, inside⟩ (.prints (program.script i)) thread).rank
            (program.script thread) = (state.worker thread).rank (program.script thread) := by
        intro thread
        by_cases this : thread = ⟨i, inside⟩
        · rw [this, Function.update_self, absent]
          rfl
        · rw [Function.update_of_ne this]
      simp only [State.rank, State.set, same, mainEq, Main.rank]
      omega
  | skips mainEq inside =>
      simp only [State.rank, mainEq, Main.rank]
      omega
  | turns turns => exact Nat.add_lt_add_right turns.rank_lt _
  | writes written => exact Nat.add_lt_add_right written.rank_lt _
  | @frees i block mainEq =>
      rcases regular.blocks.holds i block (Or.inr mainEq) with ⟨inside, _⟩
      simp only [State.rank, State.free, mainEq, Main.rank]
      omega
  | @prints thread line left workerEq =>
      have lower : (Worker.prints left).rank (program.script thread) <
          (state.worker thread).rank (program.script thread) := by
        rw [workerEq]
        exact Nat.lt_succ_self _
      exact Nat.add_lt_add_left (sum_update_lt lower) _
  | exits workerEq | allocates workerEq =>
      apply Nat.add_lt_add_left (sum_update_lt _)
      rw [workerEq]
      exact Nat.zero_lt_succ _

theorem Stops.rank_lt {main : Main} (stops : Stops program state main)
    (running : state.main.ended = false) (regular : Regular program checked state) :
    { state with main := main }.rank program < state.rank program := by
  have ended : main.rank program numThreads = 0 := by
    cases stops <;> rfl
  have ahead : 0 < state.main.rank program numThreads := by
    cases mainEq : state.main with
    | create | early | join | report | late =>
        simp only [Main.rank]
        omega
    | release i block =>
        rcases regular.blocks.holds i block (Or.inr mainEq) with ⟨inside, _⟩
        simp only [Main.rank]
        omega
    | returned | killed | undefined =>
        rw [mainEq] at running
        cases running
  apply Nat.add_lt_add_right
  rw [ended]
  exact ahead

/-! ## Somebody can go on -/

/-- A step of `main` without a failure. -/
theorem step_main (running : state.main.ended = false) :
    step program state .main = mainStep program state := by
  rw [step, if_neg (by simp [running])]

theorem step_worker (running : state.main.ended = false) (thread : Fin numThreads) :
    step program state (.worker thread) = workerStep program thread state := by
  rw [step, if_neg (by simp [running])]

/-- A thread that prints can go on. -/
theorem exists_workerStep {thread : Fin numThreads} {left : List Line}
    (workerEq : state.worker thread = .prints left) :
    ∃ after, workerStep program thread state = some after := by
  rw [workerStep, workerEq]
  cases left with
  | cons line left => exact ⟨_, rfl⟩
  | nil =>
      dsimp only
      split
      · exact ⟨_, rfl⟩
      · exact ⟨_, rfl⟩

theorem Regular.enabled (regular : Regular program checked state)
    (running : state.main.ended = false) :
    ∃ action after, Action.succeeds action = true ∧ step program state action = some after := by
  have goes (after : State numThreads) (stepped : mainStep program state = some after) :
      ∃ action after, Action.succeeds action = true ∧ step program state action = some after :=
    ⟨.main, after, rfl, (step_main running).trans stepped⟩
  cases mainEq : state.main with
  | create i =>
      by_cases inside : i < numThreads
      · exact goes _ (by rw [mainStep, mainEq]; exact dif_pos inside)
      · exact goes _ (by rw [mainStep, mainEq]; exact dif_neg inside)
  | early left =>
      cases left with
      | nil | cons => exact goes _ (by rw [mainStep, mainEq])
  | join i =>
      by_cases inside : i < numThreads
      · cases workerEq : state.worker ⟨i, inside⟩ with
        | absent =>
            exact goes _ (by rw [mainStep, mainEq]; simp only [dif_pos inside, workerEq]; rfl)
        | prints left =>
            rcases exists_workerStep workerEq with ⟨after, stepped⟩
            exact ⟨.worker ⟨i, inside⟩, after, rfl, (step_worker running _).trans stepped⟩
        | exited block =>
            cases block with
            | none | some =>
                exact goes _ (by rw [mainStep, mainEq]; simp only [dif_pos inside, workerEq]; rfl)
      · exact goes _ (by rw [mainStep, mainEq]; exact dif_neg inside)
  | report i block =>
      rcases regular.blocks.holds i block (Or.inl mainEq) with ⟨inside, exited⟩
      have found := regular.blocks.owner _ _ exited
      exact goes _ (by rw [mainStep, mainEq]; simp only [found]; rfl)
  | release i block => exact goes _ (by rw [mainStep, mainEq])
  | late left =>
      cases left with
      | nil | cons => exact goes _ (by rw [mainStep, mainEq])
  | returned | killed | undefined =>
      rw [mainEq] at running
      cases running

/-! ## What holds in a regular process -/

namespace Regular

variable (regular : Regular program checked state)

include regular

theorem prefix_script (thread : Fin numThreads) :
    linesOf state.printed (some thread) <+: program.script thread :=
  ⟨_, regular.lines.ofThread thread⟩

theorem prefix_lines : linesOf state.printed none <+: program.lines numThreads :=
  ⟨_, regular.lines.ofMain⟩

/-- How often the blocks were released. -/
theorem exists_owner {result : Result} (member : result ∈ state.results) :
    ∃ thread : Fin numThreads,
      result.releases = if (thread : Nat) < state.main.freed numThreads then 1 else 0 := by
  rcases List.mem_iff_getElem.mp member with ⟨block, inside, found⟩
  rcases regular.blocks.owned block inside with ⟨thread, exited⟩
  have owner := regular.blocks.owner thread block exited
  rw [List.getElem?_eq_getElem inside, found] at owner
  exact ⟨thread, by rw [Option.some.inj owner]⟩

theorem releases_le {result : Result} (member : result ∈ state.results) : result.releases ≤ 1 := by
  rcases regular.exists_owner member with ⟨thread, releases⟩
  rw [releases]
  split
  · exact Nat.le_refl 1
  · exact Nat.zero_le 1

/-- When `main` has returned 0, everything is printed and released. -/
theorem complete (returned : state.main = .returned 0) :
    (∀ thread : Fin numThreads, linesOf state.printed (some thread) = program.script thread) ∧
      linesOf state.printed none = program.lines numThreads ∧
      ∀ result ∈ state.results, result.releases = 1 := by
  have control := regular.control
  have lines := regular.lines
  rw [returned] at control lines
  refine ⟨fun thread => ?_, ?_, fun result member => ?_⟩
  · rcases control.joined thread thread.isLt with ⟨block, exited⟩
    have whole := lines.ofThread thread
    rwa [exited, Worker.left, List.append_nil] at whole
  · exact (List.append_nil _).symm.trans lines.ofMain
  · rcases regular.exists_owner member with ⟨thread, releases⟩
    rw [releases, returned]
    exact if_pos thread.isLt

end Regular

/-! ## Every run -/

/-- A process goes on, or has ended where it was. -/
inductive Arrived (program : Program) : State numThreads → Prop
  | goes {state : State numThreads} (regular : Regular program program.checks state) :
      Arrived program state
  | stopped {state : State numThreads} {main : Main}
      (regular : Regular program program.checks state) (stops : Stops program state main) :
      Arrived program { state with main := main }

theorem Stops.ended {main : Main} (stops : Stops program state main) : main.ended = true := by
  cases stops <;> rfl

theorem Arrived.step {action : Action numThreads} (arrived : Arrived program state)
    (stepped : step program state action = some after) : Arrived program after := by
  rcases step_moves stepped with ⟨running, moves | ⟨main, stops, rfl⟩⟩
  · cases arrived with
    | goes regular => exact .goes (moves.regular regular)
    | stopped regular stops => exact absurd (stops.ended.symm.trans running) (by simp)
  · cases arrived with
    | goes regular => exact .stopped regular stops
    | stopped regular before => exact absurd (before.ended.symm.trans running) (by simp)

theorem Arrived.regular (arrived : Arrived program state) (running : state.main.ended = false) :
    Regular program program.checks state := by
  cases arrived with
  | goes regular => exact regular
  | stopped regular stops => exact absurd (stops.ended.symm.trans running) (by simp)

theorem descends (program : Program) (numThreads : Nat) :
    Descends (step program) (Arrived program) (fun state : State numThreads => state.main.ended)
      (State.rank program) where
  enabled state arrived running := by
    have going : state.main.ended = false := by simpa using running
    rcases (arrived.regular going).enabled going with ⟨action, after, _, stepped⟩
    exact ⟨action, after, stepped⟩
  keeps _ _ _ arrived _ stepped := arrived.step stepped
  decreases _ _ _ arrived _ stepped := by
    rcases step_moves stepped with ⟨running, moves | ⟨main, stops, rfl⟩⟩
    · exact moves.rank_lt (arrived.regular running)
    · exact stops.rank_lt running (arrived.regular running)

/-! ## Runs without failures -/

/-- No call fails. -/
def calm (program : Program) (numThreads : Nat) : Step (State numThreads) (Action numThreads) :=
  restrict (step program) fun _ action => action.succeeds = true

/-- Without failures no thread is left out. -/
theorem calm_moves {action : Action numThreads} (regular : Regular program true state)
    (stepped : calm program numThreads state action = some after) :
    Moves program true state after := by
  rcases restrict_eq_some_iff.mp stepped with ⟨succeeds, stepped⟩
  have running := (step_moves stepped).1
  cases action with
  | createFails | mallocFails => cases succeeds
  | worker thread =>
      rw [step_worker running] at stepped
      exact workerStep_moves stepped
  | main =>
      rw [step_main running] at stepped
      rcases mainStep_moves stepped with moves | ⟨i, inside, mainEq, absent, rfl⟩
      · exact moves
      · refine absurd absent (regular.control.present rfl ⟨i, inside⟩ ?_)
        rw [mainEq]
        exact inside

theorem calm_descends (program : Program) (numThreads : Nat) :
    Descends (calm program numThreads) (Regular program true)
      (fun state : State numThreads => state.main = .returned 0) (State.rank program) where
  enabled state regular running := by
    have going : state.main.ended = false := by
      have sound := regular.sound
      cases mainEq : state.main with
      | create | early | join | report | release | late => rfl
      | killed | undefined =>
          rw [mainEq] at sound
          cases sound
      | returned status =>
          rw [mainEq] at sound
          have zero : status = 0 := by simpa [Main.irregular] using sound
          exact absurd (zero ▸ mainEq) running
    rcases regular.enabled going with ⟨action, after, succeeds, stepped⟩
    exact ⟨action, after, restrict_eq_some_iff.mpr ⟨succeeds, stepped⟩⟩
  keeps _ _ _ regular _ stepped := (calm_moves regular stepped).regular regular
  decreases _ _ _ regular _ stepped := (calm_moves regular stepped).rank_lt regular

theorem reachable_regular
    (reachable : Reachable (calm program numThreads) (initial numThreads) state) :
    Regular program true state :=
  reachable.invariant (.initial program true numThreads)
    fun _ _ _ regular stepped => (calm_moves regular stepped).regular regular

/-! ## The programs -/

/-- What a process promises at each moment. -/
structure Joins (program : Program) (state : State numThreads) : Prop where
  /-- Each thread prints its lines in order. -/
  threads : ∀ thread : Fin numThreads,
    linesOf state.printed (some thread) <+: program.script thread
  /-- `main` prints its lines in order, with the results of the threads. -/
  main : linesOf state.printed none <+: program.lines numThreads
  /-- Behind a line of `main` there is none of a thread that it has joined. -/
  order : state.printed.Pairwise Allowed
  /-- No block is released twice. -/
  once : ∀ result ∈ state.results, result.releases ≤ 1
  /-- When `main` has returned 0, everything is printed and released. -/
  returns : state.main = .returned 0 →
    (∀ thread : Fin numThreads, linesOf state.printed (some thread) = program.script thread) ∧
      linesOf state.printed none = program.lines numThreads ∧
      ∀ result ∈ state.results, result.releases = 1
  /-- What is undefined comes of a thread that was not created, unnoticed. -/
  undefined : state.main = .undefined →
    program.checks = false ∧ ∃ thread, state.worker thread = .absent
  /-- The process ends. -/
  ends : Inevitably (step program) (fun later => later.main.ended) state
  /-- Without failures `main` returns 0. -/
  succeeds : Reachable (calm program numThreads) (initial numThreads) state →
    Inevitably (calm program numThreads) (fun later => later.main = .returned 0) state

theorem Arrived.joins (arrived : Arrived program state) : Joins program state := by
  have ends := (descends program numThreads).inevitably arrived
  have succeeds (reachable : Reachable (calm program numThreads) (initial numThreads) state) :=
    (calm_descends program numThreads).inevitably (reachable_regular reachable)
  cases arrived with
  | goes regular =>
      have sound := regular.sound
      refine ⟨regular.prefix_script, regular.prefix_lines, regular.lines.order,
        fun _ => regular.releases_le, regular.complete, fun undefined => ?_, ends, succeeds⟩
      rw [undefined] at sound
      cases sound
  | @stopped before main regular stops =>
      refine ⟨regular.prefix_script, regular.prefix_lines, regular.lines.order,
        fun _ => regular.releases_le, fun returned => ?_, fun undefined => ?_, ends, succeeds⟩
      · cases stops <;> cases returned
      · cases stops with
        | refused | killed => cases undefined
        | @undefined i mainEq inside absent =>
            refine ⟨?_, _, absent⟩
            by_contra checks
            refine regular.control.present (by simpa using checks) ⟨i, inside⟩ ?_ absent
            rw [mainEq]
            exact inside

/-- In every run, whichever calls fail. -/
theorem reachable_arrived (reachable : Reachable (step program) (initial numThreads) state) :
    Arrived program state :=
  reachable.invariant (.goes (.initial program program.checks numThreads))
    fun _ _ _ arrived stepped => arrived.step stepped

/-- In every run of the three programs, whichever calls fail. -/
theorem reachable_joins {state : State program.numThreads}
    (reachable : Reachable (step program) (initial program.numThreads) state) :
    Joins program state :=
  (reachable_arrived reachable).joins

/-- The third thread is the first to end. -/
def schedule : List (Action 3) :=
  [.main, .main, .main, .worker 2, .worker 2, .main, .worker 2, .worker 0, .main, .worker 0,
    .worker 1, .worker 0, .main, .main, .main, .worker 1, .worker 1, .main, .main, .main, .main,
    .main, .main, .main, .main, .main]

theorem schedule_joins :
    ∃ state, Reachable (step .exit) (initial 3) state ∧ state.main = .returned 0 ∧
      Joins .exit state := by
  have reachable : Reachable (step .exit) (initial 3) _ :=
    reachable_of_exec (show exec (step .exit) (initial 3) schedule = some _ from rfl)
  exact ⟨_, reachable, rfl, @reachable_joins .exit _ reachable⟩

end CExamples.Pthread
