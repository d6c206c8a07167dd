import CExamples.PthreadMutex.Core
import Mathlib.Data.List.Nodup
import Mathlib.Tactic.Tauto

/-!
# No update is lost

Where a mutex is used, only the thread that holds it is between the load of its
increment and the line that it prints.  At each point of the section
`sharedVariable` is the number of lines printed so far, or that number plus one once
the increment is stored.  So the lines count up from one, and a thread that leaves
with the section behind it has printed exactly one of them.  A thread leaves without
the mutex only while another one holds it, or after one has printed a line.
-/

namespace CExamples.PthreadMutex

open CExamples.Transition

namespace Worker

/-- The thread is between its lock and its unlock. -/
def inSection : Worker → Bool
  | .load => true
  | .store _ => true
  | .reload => true
  | .print _ => true
  | .unlock => true
  | _ => false

/-- The thread has printed its line. -/
def hasPrinted : Worker → Bool
  | .unlock => true
  | .exited => true
  | _ => false

/-- What the thread has loaded or stored fits the number of lines. -/
def Agrees (sharedVariable lines : Nat) : Worker → Prop
  | .store value => value = lines ∧ sharedVariable = lines
  | .reload => sharedVariable = lines + 1
  | .print value => value = lines + 1 ∧ sharedVariable = lines + 1
  | _ => sharedVariable = lines

end Worker

namespace Main

/-- `main` has still to create the thread. -/
def Creates (thread : Nat) : Main → Prop
  | .create i => i ≤ thread
  | _ => False

/-- `main` has created the thread. -/
def HasCreated (thread : Nat) : Main → Prop
  | .create i => thread < i
  | .failed => False
  | _ => True

/-- `main` has joined the thread. -/
def HasJoined (thread : Nat) : Main → Prop
  | .join i => thread < i
  | .exited => True
  | _ => False

end Main

variable {numThreads : Nat} {program : Program} {state after : State numThreads}
  {thread : Fin numThreads}

/-! ## The section -/

/-- The mutex and the numbers. -/
structure Guarded (state : State numThreads) : Prop where
  exclusive : Exclusive state.mutex fun thread => (state.worker thread).inSection = true
  free : state.mutex = none → state.sharedVariable = state.printed.length
  held : ∀ thread, state.mutex = some thread →
    (state.worker thread).Agrees state.sharedVariable state.printed.length

namespace Guarded

theorem initial (numThreads : Nat) : Guarded (initial numThreads) where
  exclusive _ := iff_of_false Bool.false_ne_true nofun
  free _ := rfl
  held := nofun

/-- The thread in the section agrees with the numbers. -/
theorem agrees (guarded : Guarded state) {worker : Worker}
    (workerEq : state.worker thread = worker) (inside : worker.inSection = true) :
    worker.Agrees state.sharedVariable state.printed.length := by
  subst workerEq
  exact guarded.held thread ((guarded.exclusive thread).mp inside)

/-- The holder goes on within the section. -/
theorem within (guarded : Guarded state) {worker worker' : Worker}
    (workerEq : state.worker thread = worker) (inside : worker.inSection = true)
    (stays : worker'.inSection = true) {sharedVariable : Nat}
    {printed : List (Fin numThreads × Nat)}
    (agrees : worker'.Agrees sharedVariable printed.length) :
    Guarded
      { state.set thread worker' with sharedVariable := sharedVariable, printed := printed } := by
  subst workerEq
  have holder := (guarded.exclusive thread).mp inside
  constructor
  · apply guarded.exclusive.congr
    intro other
    by_cases same : other = thread
    · subst same
      simpa [inside] using stays
    · simp [same]
  · intro free
    rw [show state.mutex = none from free] at holder
    cases holder
  · intro other holder'
    have same : other = thread := Option.some.inj (holder'.symm.trans holder)
    subst same
    simpa using agrees

/-- A thread outside the section stays outside. -/
theorem outside (guarded : Guarded state) (before : (state.worker thread).inSection = false)
    {worker : Worker} (stays : worker.inSection = false) (main : Main) :
    Guarded { state.set thread worker with main := main } where
  exclusive := by
    apply guarded.exclusive.congr
    intro other
    by_cases same : other = thread
    · subst same
      simpa [before] using stays
    · simp [same]
  free := guarded.free
  held other holder := by
    have apart : other ≠ thread := by
      rintro rfl
      rw [(guarded.exclusive other).mpr holder] at before
      cases before
    simpa [apart] using guarded.held other holder

theorem enter (guarded : Guarded state) (free : state.mutex = none) :
    Guarded { state.set thread .load with mutex := some thread } where
  exclusive := by
    apply guarded.exclusive.acquire free
    · simp [Worker.inSection]
    · intro other apart
      simp [apart]
  free := nofun
  held other holder := by
    cases holder
    simpa [Worker.Agrees] using guarded.free free

theorem unlock (guarded : Guarded state) (workerEq : state.worker thread = .unlock) :
    Guarded { state.set thread .exited with mutex := none } where
  exclusive := by
    have inside : (state.worker thread).inSection = true := by
      rw [workerEq]
      rfl
    apply guarded.exclusive.release inside
    · simp [Worker.inSection]
    · intro other apart
      simp [apart]
  free _ := guarded.agrees workerEq rfl
  held := nofun

theorem moves (guarded : Guarded state) (moves : Moves program thread state after) :
    Guarded after := by
  cases moves with
  | enter _ free => exact guarded.enter free
  | skip _ workerEq _ => exact guarded.outside (by rw [workerEq]; rfl) rfl state.main
  | load workerEq =>
      have same := guarded.agrees workerEq rfl
      exact guarded.within workerEq rfl rfl ⟨same, same⟩
  | store value workerEq =>
      have loaded := guarded.agrees workerEq rfl
      exact guarded.within workerEq rfl rfl (congrArg (· + 1) loaded.1)
  | reload workerEq =>
      have stored := guarded.agrees workerEq rfl
      exact guarded.within workerEq rfl rfl ⟨stored, stored⟩
  | print value workerEq =>
      have loaded := guarded.agrees workerEq rfl
      apply guarded.within workerEq rfl rfl
      rw [List.length_append, List.length_singleton]
      exact loaded.2
  | unlock workerEq => exact guarded.unlock workerEq

end Guarded

/-! ## The lines -/

/-- The lines count up from one, and each thread that is through with `printf` has
printed one of them. -/
structure Ledger (state : State numThreads) : Prop where
  values : state.printed.map Prod.snd = List.range' 1 state.printed.length
  once : (state.printed.map Prod.fst).Nodup
  printers : ∀ thread,
    thread ∈ state.printed.map Prod.fst ↔ (state.worker thread).hasPrinted = true

namespace Ledger

theorem initial (numThreads : Nat) : Ledger (initial numThreads) where
  values := rfl
  once := List.nodup_nil
  printers _ := iff_of_false List.not_mem_nil Bool.false_ne_true

/-- A thread goes on without printing. -/
theorem quiet (ledger : Ledger state) {worker : Worker}
    (same : worker.hasPrinted = (state.worker thread).hasPrinted) (sharedVariable : Nat)
    (mutex : Option (Fin numThreads)) (main : Main) :
    Ledger { state.set thread worker with
      sharedVariable := sharedVariable, mutex := mutex, main := main } where
  values := ledger.values
  once := ledger.once
  printers other := by
    refine (ledger.printers other).trans ?_
    by_cases eq : other = thread
    · subst eq
      simp [same]
    · simp [eq]

theorem print (ledger : Ledger state) {value : Nat} (workerEq : state.worker thread = .print value)
    (next : value = state.printed.length + 1) :
    Ledger { state.set thread .unlock with printed := state.printed ++ [(thread, value)] } where
  values := by
    rw [List.map_append, List.length_append, List.length_singleton, List.range'_1_concat,
      ledger.values, next, Nat.add_comm 1]
    rfl
  once := by
    have new : thread ∉ state.printed.map Prod.fst := by
      rw [ledger.printers thread, workerEq]
      exact Bool.false_ne_true
    rw [List.map_append]
    apply ledger.once.append (List.nodup_singleton thread)
    exact List.disjoint_singleton.mpr new
  printers other := by
    rw [List.map_append, List.mem_append, ledger.printers other, List.map_singleton,
      List.mem_singleton]
    by_cases same : other = thread
    · subst same
      simp [Worker.hasPrinted]
    · simp [same]

theorem moves (ledger : Ledger state) (guarded : Guarded state)
    (moves : Moves program thread state after) : Ledger after := by
  cases moves with
  | enter workerEq _ => exact ledger.quiet (by rw [workerEq]; rfl) _ _ _
  | skip _ workerEq _ => exact ledger.quiet (by rw [workerEq]; rfl) _ _ _
  | load workerEq => exact ledger.quiet (by rw [workerEq]; rfl) _ _ _
  | store value workerEq => exact ledger.quiet (by rw [workerEq]; rfl) _ _ _
  | reload workerEq => exact ledger.quiet (by rw [workerEq]; rfl) _ _ _
  | print value workerEq => exact ledger.print workerEq (guarded.agrees workerEq rfl).1
  | unlock workerEq => exact ledger.quiet (by rw [workerEq]; rfl) _ _ _

end Ledger

/-! ## The threads that have left without the mutex -/

/-- A thread leaves without the mutex only after another one has got it. -/
def Excused (program : Program) (state : State numThreads) : Prop :=
  ∀ thread, state.worker thread = .skipped →
    program = .trylock ∧ (state.mutex ≠ none ∨ state.printed ≠ [])

namespace Excused

theorem initial (numThreads : Nat) : Excused program (initial numThreads) :=
  nofun

/-- A thread goes on, and the mutex or a line is there. -/
theorem goes (excused : Excused program state) {worker : Worker} {sharedVariable : Nat}
    {mutex : Option (Fin numThreads)} {printed : List (Fin numThreads × Nat)} {main : Main}
    (skips : worker = .skipped → program = .trylock)
    (excuse : (state.mutex ≠ none ∨ state.printed ≠ [] ∨ worker = .skipped) →
      mutex ≠ none ∨ printed ≠ []) :
    Excused program { state.set thread worker with
      sharedVariable := sharedVariable, mutex := mutex, printed := printed, main := main } := by
  intro other skipped
  by_cases same : other = thread
  · subst same
    have skipped : worker = .skipped := by simpa using skipped
    exact ⟨skips skipped, excuse (Or.inr (Or.inr skipped))⟩
  · obtain ⟨trylock, before⟩ := excused other (by simpa [same] using skipped)
    exact ⟨trylock, excuse (by tauto)⟩

theorem moves (excused : Excused program state) (ledger : Ledger state)
    (moves : Moves program thread state after) : Excused program after := by
  cases moves with
  | enter workerEq _ => exact excused.goes nofun fun _ => Or.inl nofun
  | skip trylock workerEq held => exact excused.goes (fun _ => trylock) fun _ => Or.inl held
  | load workerEq => exact excused.goes nofun (by simp)
  | store value workerEq => exact excused.goes nofun (by simp)
  | reload workerEq => exact excused.goes nofun (by simp)
  | print value workerEq => exact excused.goes nofun fun _ => Or.inr (by simp)
  | unlock workerEq =>
      have printed : thread ∈ state.printed.map Prod.fst := by
        rw [ledger.printers, workerEq]
        rfl
      have nonempty : state.printed ≠ [] := by
        intro empty
        rw [empty] at printed
        cases printed
      exact excused.goes nofun fun _ => Or.inr nonempty

end Excused

/-! ## What `main` knows -/

/-- The threads that `main` has created and joined. -/
structure Managed (state : State numThreads) : Prop where
  creates : ∀ thread : Fin numThreads, state.main.Creates thread → state.worker thread = .absent
  created : ∀ thread : Fin numThreads, state.main.HasCreated thread →
    state.worker thread ≠ .absent
  joined : ∀ thread : Fin numThreads, state.main.HasJoined thread →
    (state.worker thread).ended = true

namespace Managed

theorem initial (numThreads : Nat) : Managed (initial numThreads) where
  creates _ _ := rfl
  created _ before := absurd before (Nat.not_lt_zero _)
  joined := nofun

/-- A running thread goes on. -/
theorem goes (managed : Managed state) {worker : Worker} {sharedVariable : Nat}
    {mutex : Option (Fin numThreads)} {printed : List (Fin numThreads × Nat)}
    (present : state.worker thread ≠ .absent) (running : (state.worker thread).ended = false)
    (stays : worker ≠ .absent) :
    Managed { state.set thread worker with
      sharedVariable := sharedVariable, mutex := mutex, printed := printed } where
  creates other creates := by
    have absent := managed.creates other creates
    have apart : other ≠ thread := by
      rintro rfl
      exact present absent
    simpa [apart] using absent
  created other created := by
    by_cases same : other = thread
    · subst same
      simpa using stays
    · simpa [same] using managed.created other created
  joined other joined := by
    have ended := managed.joined other joined
    have apart : other ≠ thread := by
      rintro rfl
      rw [running] at ended
      cases ended
    simpa [apart] using ended

theorem moves (managed : Managed state) (moves : Moves program thread state after) :
    Managed after := by
  obtain ⟨present, running⟩ := moves.running
  cases moves with
  | enter _ _ => exact managed.goes present running nofun
  | skip _ _ _ => exact managed.goes present running nofun
  | load _ => exact managed.goes present running nofun
  | store _ _ => exact managed.goes present running nofun
  | reload _ => exact managed.goes present running nofun
  | print _ _ => exact managed.goes present running nofun
  | unlock _ => exact managed.goes present running nofun

/-- `main` has created another thread. -/
theorem create (managed : Managed state) {i : Nat} (inside : i < numThreads)
    (mainEq : state.main = .create i) :
    Managed { state.set ⟨i, inside⟩ .entry with main := .create (i + 1) } where
  creates other later := by
    have apart : other ≠ ⟨i, inside⟩ := by
      rintro rfl
      exact Nat.not_succ_le_self i later
    have absent := managed.creates other (by rw [mainEq]; exact Nat.le_of_succ_le later)
    simpa [apart] using absent
  created other earlier := by
    by_cases same : other = ⟨i, inside⟩
    · subst same
      simp
    · have before : other.val < i := by
        have apart : other.val ≠ i := fun eq => same (Fin.ext eq)
        exact Nat.lt_of_le_of_ne (Nat.le_of_lt_succ earlier) apart
      have present := managed.created other (by rw [mainEq]; exact before)
      simpa [same] using present
  joined := nofun

theorem mainMoves (managed : Managed state) (moves : MainMoves state after) : Managed after := by
  cases moves with
  | create i inside mainEq => exact managed.create inside mainEq
  | fail i mainEq => exact ⟨nofun, nofun, nofun⟩
  | created i all mainEq =>
      refine ⟨nofun, ?_, fun _ before => absurd before (Nat.not_lt_zero _)⟩
      intro other _
      exact managed.created other (by rw [mainEq]; exact Nat.lt_of_lt_of_le other.isLt all)
  | join i inside mainEq ended =>
      refine ⟨nofun, fun other _ => managed.created other (by rw [mainEq]; trivial), ?_⟩
      intro other before
      rcases Nat.lt_succ_iff_lt_or_eq.mp before with earlier | same
      · exact managed.joined other (by rw [mainEq]; exact earlier)
      · rw [show other = ⟨i, inside⟩ from Fin.ext same]
        exact ended
  | exit i all mainEq =>
      refine ⟨nofun, fun other _ => managed.created other (by rw [mainEq]; trivial), ?_⟩
      intro other _
      exact managed.joined other (by rw [mainEq]; exact Nat.lt_of_lt_of_le other.isLt all)

end Managed

/-! ## All runs -/

/-- The invariant of all runs. -/
structure Counting (program : Program) (state : State numThreads) : Prop where
  guarded : Guarded state
  ledger : Ledger state
  excused : Excused program state
  managed : Managed state

namespace Counting

theorem initial (numThreads : Nat) : Counting program (initial numThreads) where
  guarded := Guarded.initial numThreads
  ledger := Ledger.initial numThreads
  excused := Excused.initial numThreads
  managed := Managed.initial numThreads

theorem mainMoves (counting : Counting program state) (moves : MainMoves state after) :
    Counting program after := by
  have managed := counting.managed.mainMoves moves
  obtain ⟨guarded, ledger, excused, before⟩ := counting
  -- only the creation of a thread changes more than `main`
  have alone {main : Main} (managed : Managed { state with main := main }) :
      Counting program { state with main := main } :=
    ⟨⟨guarded.exclusive, guarded.free, guarded.held⟩,
      ⟨ledger.values, ledger.once, ledger.printers⟩, excused, managed⟩
  cases moves with
  | create i inside mainEq =>
      have absent := before.creates ⟨i, inside⟩ (by rw [mainEq]; exact Nat.le_refl i)
      constructor
      · exact guarded.outside (by rw [absent]; rfl) rfl _
      · exact ledger.quiet (by rw [absent]; rfl) _ _ _
      · exact excused.goes nofun (by simp)
      · exact managed
  | fail i mainEq => exact alone managed
  | created i all mainEq => exact alone managed
  | join i inside mainEq ended => exact alone managed
  | exit i all mainEq => exact alone managed

theorem moves (counting : Counting program state) (moves : Moves program thread state after) :
    Counting program after where
  guarded := counting.guarded.moves moves
  ledger := counting.ledger.moves counting.guarded moves
  excused := counting.excused.moves counting.ledger moves
  managed := counting.managed.moves moves

theorem next (counting : Counting program state) (guarded : program ≠ .lock false)
    {action : Action numThreads} (stepped : step program state action = some after) :
    Counting program after := by
  rcases step_cases guarded stepped with moves | ⟨thread, moves⟩
  · exact counting.mainMoves moves
  · exact counting.moves moves

theorem of_reachable (guarded : program ≠ .lock false)
    (reachable : Reachable (step program) (PthreadMutex.initial numThreads) state) :
    Counting program state :=
  reachable.invariant (initial numThreads) fun _ _ _ counting stepped =>
    counting.next guarded stepped

end Counting

end CExamples.PthreadMutex
