import CExamples.Pthread.Core
import CExamples.Transition.Inevitable
import Mathlib.Algebra.Order.BigOperators.Group.Finset

/-!
# What is joined has been said

Each thread prints its own lines in order, and `main` joins the threads in order, so what
`main` prints behind a join comes behind the lines of the threads that it has joined.  The
block of a thread has the number of the thread, and `main` releases it once.
-/

namespace CExamples.Pthread

open CExamples.Transition

variable {numThreads : Nat}

/-- How many threads were joined when `main` prints a line. -/
def Line.joined (numThreads : Nat) : Line → Nat
  | .returned i _ => i
  | .late _ => numThreads
  | _ => 0

/-- Behind a line of `main` no line of a thread that it has joined. -/
def Allowed (earlier later : Option (Fin numThreads) × Line) : Prop :=
  earlier.1 = none → ∀ thread : Fin numThreads, later.1 = some thread →
    earlier.2.joined numThreads ≤ thread

/-- What a thread, or `main`, has printed. -/
def linesOf (printed : List (Option (Fin numThreads) × Line)) (thread : Option (Fin numThreads)) :
    List Line :=
  (printed.filter (·.1 = thread)).map (·.2)

namespace Program

/-- What `main` prints of the results from that of thread `i` on. -/
def reports (program : Program) (numThreads i : Nat) : List Line :=
  if program.allocates then
    (List.range' i (numThreads - i)).map fun i => .returned (i + 1) ((i + 1) * 2)
  else []

/-- What `main` prints. -/
def lines (program : Program) (numThreads : Nat) : List Line :=
  program.early ++ (program.reports numThreads 0 ++ program.late)

end Program

namespace Main

/-- How many threads `main` has tried to create. -/
def created (numThreads : Nat) : Main → Nat
  | .create i => i
  | _ => numThreads

/-- How many threads `main` has joined. -/
def joined (numThreads : Nat) : Main → Nat
  | .create _ | .early _ => 0
  | .join i => i
  | .report i _ | .release i _ => i + 1
  | _ => numThreads

/-- How many results `main` has released. -/
def freed (numThreads : Nat) : Main → Nat
  | .create _ | .early _ => 0
  | .join i | .report i _ | .release i _ => i
  | _ => numThreads

/-- What `main` has still to print. -/
def left (program : Program) (numThreads : Nat) : Main → List Line
  | .create _ => program.lines numThreads
  | .early left => left ++ (program.reports numThreads 0 ++ program.late)
  | .join i | .report i _ => program.reports numThreads i ++ program.late
  | .release i _ => program.reports numThreads (i + 1) ++ program.late
  | .late left => left
  | _ => []

end Main

/-- What a thread with `script` has still to print. -/
def Worker.left (script : List Line) : Worker → List Line
  | .absent => script
  | .prints left => left
  | .exited _ => []

variable {program : Program} {checked : Bool} {state after : State numThreads}

/-! ## Where the threads are -/

/-- The threads are created and joined in order; `checked` says that none is left out. -/
structure Control (checked : Bool) (main : Main) (worker : Fin numThreads → Worker) : Prop where
  inRange : main.joined numThreads ≤ numThreads
  uncreated : ∀ thread : Fin numThreads, main.created numThreads ≤ thread →
    worker thread = .absent
  present : checked = true → ∀ thread : Fin numThreads, thread < main.created numThreads →
    worker thread ≠ .absent
  joined : ∀ thread : Fin numThreads, thread < main.joined numThreads →
    ∃ block, worker thread = .exited block

section Control

variable {main : Main} {worker : Fin numThreads → Worker} {thread : Fin numThreads}

theorem Control.initial (checked : Bool) (numThreads : Nat) :
    Control checked (.create 0) fun _ : Fin numThreads => .absent where
  inRange := Nat.zero_le _
  uncreated _ _ := rfl
  present _ _ below := absurd below (Nat.not_lt_zero _)
  joined _ below := absurd below (Nat.not_lt_zero _)

/-- A thread that goes on. -/
theorem Control.move (control : Control checked main worker) {left : List Line}
    (workerEq : worker thread = .prints left) {moved : Worker} (there : moved ≠ .absent) :
    Control checked main (Function.update worker thread moved) where
  inRange := control.inRange
  uncreated other outside := by
    have absent := control.uncreated other outside
    have apart : other ≠ thread := by
      rintro rfl
      rw [workerEq] at absent
      cases absent
    rwa [Function.update_of_ne apart]
  present all other inside := by
    by_cases same : other = thread
    · rwa [same, Function.update_self]
    · rw [Function.update_of_ne same]
      exact control.present all other inside
  joined other below := by
    rcases control.joined other below with ⟨block, exited⟩
    have apart : other ≠ thread := by
      rintro rfl
      rw [workerEq] at exited
      cases exited
    exact ⟨block, by rwa [Function.update_of_ne apart]⟩

/-- `main` goes on, behind no more joins. -/
theorem Control.stay (control : Control checked main worker) {next : Main}
    (created : next.created numThreads = main.created numThreads)
    (joined : next.joined numThreads ≤ main.joined numThreads) : Control checked next worker where
  inRange := joined.trans control.inRange
  uncreated other outside := control.uncreated other (created ▸ outside)
  present all other inside := control.present all other (created ▸ inside)
  joined other below := control.joined other (Nat.lt_of_lt_of_le below joined)

theorem Control.turns (control : Control checked main worker) {next : Main}
    (turns : Turns program worker main next) : Control checked next worker := by
  have one (i : Nat) (inside : i < numThreads) (block : Option Nat)
      (ended : worker ⟨i, inside⟩ = .exited block) (control : Control checked (.join i) worker)
      (other : Fin numThreads) (below : other < i + 1) : ∃ block, worker other = .exited block := by
    rcases Nat.lt_succ_iff_lt_or_eq.mp below with before | same
    · exact control.joined other before
    · have isThread : other = ⟨i, inside⟩ := Fin.ext same
      exact ⟨block, isThread ▸ ended⟩
  cases turns with
  | created outside =>
      constructor
      · exact Nat.zero_le _
      · exact fun other behind => absurd other.isLt (Nat.not_lt_of_le behind)
      · exact fun all other inside =>
          control.present all other (Nat.lt_of_lt_of_le inside outside)
      · exact fun other below => absurd below (Nat.not_lt_zero _)
  | toJoins => exact control.stay rfl (Nat.le_refl _)
  | joins inside ended | receives inside ended =>
      exact ⟨inside, control.uncreated, control.present, one _ inside _ ended control⟩
  | joined outside =>
      exact ⟨Nat.le_refl _, control.uncreated, control.present, fun other below =>
        control.joined other (Nat.lt_of_lt_of_le below outside)⟩
  | returns => exact control.stay rfl (Nat.le_refl _)

theorem Says.control {results : List Result} {line : Line} {next : Main}
    (written : Says results main line next) (control : Control checked main worker) :
    Control checked next worker := by
  cases written with
  | early | reports | late => exact control.stay rfl (Nat.le_refl _)

theorem Moves.control (moves : Moves program checked state after)
    (control : Control checked state.main state.worker) :
    Control checked after.main after.worker := by
  cases moves with
  | @creates i mainEq inside =>
      rw [mainEq] at control
      constructor
      · exact Nat.zero_le _
      · intro other outside
        have apart : other ≠ ⟨i, inside⟩ := fun same => absurd outside (by
          rw [same]
          exact Nat.not_succ_le_self i)
        exact (Function.update_of_ne apart _ _).trans
          (control.uncreated other (Nat.le_of_succ_le outside))
      · intro all other below
        by_cases same : other = ⟨i, inside⟩
        · rw [same]
          exact (Function.update_self _ _ _).trans_ne nofun
        · have before : (other : Nat) < i :=
            Nat.lt_of_le_of_ne (Nat.le_of_lt_succ below) fun equal => same (Fin.ext equal)
          exact (Function.update_of_ne same _ _).trans_ne (control.present all other before)
      · exact fun other below => absurd below (Nat.not_lt_zero _)
  | @skips i mainEq inside unchecked =>
      rw [mainEq] at control
      constructor
      · exact Nat.zero_le _
      · exact fun other outside => control.uncreated other (Nat.le_of_succ_le outside)
      · exact fun all => absurd (unchecked.symm.trans all) Bool.false_ne_true
      · exact fun other below => absurd below (Nat.not_lt_zero _)
  | turns turns => exact control.turns turns
  | writes written => exact written.control control
  | frees mainEq =>
      rw [mainEq] at control
      exact control.stay rfl (Nat.le_refl _)
  | prints workerEq | exits workerEq | allocates workerEq => exact control.move workerEq nofun

end Control

/-! ## The blocks -/

/-- A thread that has ended has returned a block of its own, with its number, and `main`
has released the blocks of the first threads. -/
structure Blocks (program : Program) (results : List Result) (main : Main)
    (worker : Fin numThreads → Worker) : Prop where
  returns : ∀ thread block, worker thread = .exited block → block.isSome = program.allocates
  owner : ∀ thread block, worker thread = .exited (some block) →
    results[block]? = some { value := (thread + 1) * 2, releases :=
      if (thread : Nat) < main.freed numThreads then 1 else 0 }
  distinct : ∀ thread other block, worker thread = .exited (some block) →
    worker other = .exited (some block) → thread = other
  owned : ∀ block, block < results.length → ∃ thread, worker thread = .exited (some block)
  holds : ∀ i block, main = .report i block ∨ main = .release i block →
    ∃ inside : i < numThreads, worker ⟨i, inside⟩ = .exited (some block)

section Blocks

variable {main next : Main} {worker : Fin numThreads → Worker} {thread : Fin numThreads}
  {results : List Result}

theorem Blocks.initial (program : Program) (numThreads : Nat) :
    Blocks program [] (.create 0) fun _ : Fin numThreads => .absent where
  returns _ _ exited := nomatch exited
  owner _ _ exited := nomatch exited
  distinct _ _ _ exited := nomatch exited
  owned _ inside := absurd inside (Nat.not_lt_zero _)
  holds _ _ there := by simp at there

theorem Main.freed_le_joined (main : Main) : main.freed numThreads ≤ main.joined numThreads := by
  cases main with
  | report | release => exact Nat.le_succ _
  | create | early | join | late | returned | killed | undefined => exact Nat.le_refl _

/-- A thread goes on, or ends without a block. -/
theorem Blocks.move (blocks : Blocks program results main worker)
    (running : ∀ block, worker thread ≠ .exited block) {moved : Worker}
    (bare : ∀ block, moved = .exited block → block = none ∧ program.allocates = false) :
    Blocks program results main (Function.update worker thread moved) := by
  have same (other : Fin numThreads) (block : Nat) :
      Function.update worker thread moved other = .exited (some block) ↔
        worker other = .exited (some block) := by
    by_cases this : other = thread
    · rw [this, Function.update_self]
      refine iff_of_false (fun exited => ?_) (running _)
      cases (bare _ exited).1
    · rw [Function.update_of_ne this]
  constructor
  · intro other block exited
    by_cases this : other = thread
    · rw [this, Function.update_self] at exited
      rw [(bare block exited).1, (bare block exited).2]
      rfl
    · rw [Function.update_of_ne this] at exited
      exact blocks.returns other block exited
  · exact fun other block exited => blocks.owner other block ((same other _).mp exited)
  · exact fun other third block exited exitedToo =>
      blocks.distinct other third block ((same other _).mp exited) ((same third _).mp exitedToo)
  · intro block inside
    rcases blocks.owned block inside with ⟨other, exited⟩
    exact ⟨other, (same other _).mpr exited⟩
  · intro i block there
    rcases blocks.holds i block there with ⟨inside, exited⟩
    exact ⟨inside, (same _ _).mpr exited⟩

/-- `main` goes on, and releases nothing. -/
theorem Blocks.stay (blocks : Blocks program results main worker)
    (freed : ∀ thread block, worker thread = .exited (some block) →
      ((thread : Nat) < next.freed numThreads ↔ (thread : Nat) < main.freed numThreads))
    (holds : ∀ i block, next = .report i block ∨ next = .release i block →
      ∃ inside : i < numThreads, worker ⟨i, inside⟩ = .exited (some block)) :
    Blocks program results next worker where
  returns := blocks.returns
  owner thread block exited := by
    simp only [freed thread block exited]
    exact blocks.owner thread block exited
  distinct := blocks.distinct
  owned := blocks.owned
  holds := holds

theorem Blocks.turns (blocks : Blocks program results main worker)
    (turns : Turns program worker main next) : Blocks program results next worker := by
  cases turns with
  | created | toJoins | returns => exact blocks.stay (fun _ _ _ => Iff.rfl) (by simp)
  | joined outside =>
      refine blocks.stay (fun thread _ _ => ?_) (by simp)
      exact iff_of_true thread.isLt (Nat.lt_of_lt_of_le thread.isLt outside)
  | @joins i inside ended =>
      refine blocks.stay (fun thread block exited => ?_) (by simp)
      have apart : (thread : Nat) ≠ i := by
        intro same
        have isThread : thread = ⟨i, inside⟩ := Fin.ext same
        rw [isThread, ended] at exited
        cases exited
      exact ⟨fun below => Nat.lt_of_le_of_ne (Nat.le_of_lt_succ below) apart, Nat.lt_succ_of_lt⟩
  | receives inside ended =>
      refine blocks.stay (fun _ _ _ => Iff.rfl) ?_
      rintro i block (there | there)
      · cases there
        exact ⟨inside, ended⟩
      · cases there

theorem Says.blocks {line : Line} (written : Says results main line next)
    (blocks : Blocks program results main worker) : Blocks program results next worker := by
  cases written with
  | early | late => exact blocks.stay (fun _ _ _ => Iff.rfl) (by simp)
  | reports found =>
      refine blocks.stay (fun _ _ _ => Iff.rfl) ?_
      rintro i block (there | there)
      · cases there
      · cases there
        exact blocks.holds _ _ (Or.inl rfl)

/-- The block of thread `i` is released. -/
theorem Blocks.free {i block : Nat} (blocks : Blocks program results (.release i block) worker) :
    Blocks program
      (results.modify block fun result => { result with releases := result.releases + 1 })
      (.join (i + 1)) worker := by
  rcases blocks.holds i block (Or.inr rfl) with ⟨inside, held⟩
  constructor
  · exact blocks.returns
  · intro thread other exited
    have before := blocks.owner thread other exited
    rw [List.getElem?_modify, before]
    by_cases same : block = other
    · have isThread : thread = ⟨i, inside⟩ := blocks.distinct _ _ _ exited (same ▸ held)
      simp [same, isThread, Main.freed]
    · have apart : (thread : Nat) ≠ i := by
        intro equal
        have isThread : thread = ⟨i, inside⟩ := Fin.ext equal
        rw [isThread, held] at exited
        cases exited
        exact same rfl
      have later : (thread : Nat) < i + 1 ↔ (thread : Nat) < i := by omega
      by_cases below : (thread : Nat) < i <;> simp [same, Main.freed, later, below]
  · exact blocks.distinct
  · intro other inside
    rw [List.length_modify] at inside
    exact blocks.owned other inside
  · simp

/-- A thread ends with a new block. -/
theorem Blocks.allocate (blocks : Blocks program results main worker)
    (allocates : program.allocates = true) (running : ∀ block, worker thread ≠ .exited block)
    (unjoined : main.freed numThreads ≤ thread) :
    Blocks program (results ++ [{ value := (thread + 1) * 2, releases := 0 }]) main
      (Function.update worker thread (.exited (some results.length))) := by
  have cases (other : Fin numThreads) (block : Option Nat)
      (exited : Function.update worker thread (.exited (some results.length)) other =
        .exited block) :
      other = thread ∧ block = some results.length ∨
        other ≠ thread ∧ worker other = .exited block := by
    by_cases this : other = thread
    · rw [this, Function.update_self] at exited
      cases exited
      exact Or.inl ⟨this, rfl⟩
    · rw [Function.update_of_ne this] at exited
      exact Or.inr ⟨this, exited⟩
  have inside (other : Fin numThreads) (block : Nat)
      (exited : worker other = .exited (some block)) : block < results.length :=
    (List.getElem?_eq_some_iff.mp (blocks.owner other block exited)).1
  constructor
  · intro other block exited
    rcases cases other block exited with ⟨-, rfl⟩ | ⟨-, exited⟩
    · exact allocates.symm
    · exact blocks.returns other block exited
  · intro other block exited
    rcases cases other _ exited with ⟨rfl, blockEq⟩ | ⟨-, exited⟩
    · cases blockEq
      rw [List.getElem?_concat_length, if_neg (Nat.not_lt_of_le unjoined)]
    · rw [List.getElem?_append_left (inside other block exited)]
      exact blocks.owner other block exited
  · intro other third block exited exitedToo
    rcases cases other _ exited with ⟨isThread, blockEq⟩ | ⟨-, old⟩
    · cases blockEq
      rcases cases third _ exitedToo with ⟨isThreadToo, -⟩ | ⟨-, oldToo⟩
      · rw [isThread, isThreadToo]
      · exact absurd (inside third _ oldToo) (Nat.lt_irrefl _)
    · rcases cases third _ exitedToo with ⟨-, blockEq⟩ | ⟨-, oldToo⟩
      · cases blockEq
        exact absurd (inside other _ old) (Nat.lt_irrefl _)
      · exact blocks.distinct other third block old oldToo
  · intro block below
    rw [List.length_append, List.length_singleton] at below
    rcases Nat.lt_succ_iff_lt_or_eq.mp below with old | rfl
    · rcases blocks.owned block old with ⟨other, exited⟩
      have apart : other ≠ thread := fun same => running _ (same ▸ exited)
      exact ⟨other, by rwa [Function.update_of_ne apart]⟩
    · exact ⟨thread, Function.update_self _ _ _⟩
  · intro i block there
    rcases blocks.holds i block there with ⟨within, exited⟩
    have apart : ⟨i, within⟩ ≠ thread := fun same => running _ (same ▸ exited)
    exact ⟨within, by rwa [Function.update_of_ne apart]⟩

theorem Moves.blocks (moves : Moves program checked state after)
    (control : Control checked state.main state.worker)
    (blocks : Blocks program state.results state.main state.worker) :
    Blocks program after.results after.main after.worker := by
  cases moves with
  | @creates i mainEq inside =>
      rw [mainEq] at blocks control
      have absent := control.uncreated ⟨i, inside⟩ (Nat.le_refl i)
      have moved : Blocks program state.results (.create i)
          (Function.update state.worker ⟨i, inside⟩ (.prints (program.script i))) := by
        apply blocks.move
        · exact fun block => by simp [absent]
        · exact fun block exited => by cases exited
      exact moved.stay (fun _ _ _ => Iff.rfl) (by simp)
  | skips mainEq inside unchecked =>
      rw [mainEq] at blocks
      exact blocks.stay (fun _ _ _ => Iff.rfl) (by simp)
  | turns turns => exact blocks.turns turns
  | writes written => exact written.blocks blocks
  | frees mainEq =>
      rw [mainEq] at blocks
      exact blocks.free
  | prints workerEq =>
      exact blocks.move (fun block => by simp [workerEq]) (fun block exited => by cases exited)
  | exits workerEq bare =>
      refine blocks.move (fun block => by simp [workerEq]) fun block exited => ?_
      cases exited
      exact ⟨rfl, bare⟩
  | @allocates thread workerEq allocates =>
      apply blocks.allocate allocates (fun block => by simp [workerEq])
      by_contra joined
      have below := Nat.lt_of_lt_of_le (Nat.lt_of_not_le joined) state.main.freed_le_joined
      rcases control.joined thread below with ⟨block, exited⟩
      rw [workerEq] at exited
      cases exited

end Blocks

/-! ## The output -/

/-- The threads and `main` print their lines in order, and no thread prints behind a line of
`main` that comes behind its join. -/
structure Lines (program : Program) (printed : List (Option (Fin numThreads) × Line)) (main : Main)
    (worker : Fin numThreads → Worker) : Prop where
  ofThread : ∀ thread : Fin numThreads,
    linesOf printed (some thread) ++ (worker thread).left (program.script thread) =
      program.script thread
  ofMain : linesOf printed none ++ main.left program numThreads = program.lines numThreads
  order : printed.Pairwise Allowed
  behind : ∀ line, (none, line) ∈ printed → line.joined numThreads ≤ main.joined numThreads

section Lines

variable {main next : Main} {worker : Fin numThreads → Worker} {thread : Fin numThreads}
  {printed : List (Option (Fin numThreads) × Line)} {line : Line}

theorem linesOf_concat (printed : List (Option (Fin numThreads) × Line))
    (who thread : Option (Fin numThreads)) (line : Line) :
    linesOf (printed ++ [(who, line)]) thread =
      linesOf printed thread ++ if who = thread then [line] else [] := by
  simp only [linesOf, List.filter_append, List.map_append]
  by_cases same : who = thread <;> simp [same]

theorem mem_linesOf {who : Option (Fin numThreads)} :
    line ∈ linesOf printed who ↔ (who, line) ∈ printed := by
  simp [linesOf]

theorem Lines.initial (program : Program) (numThreads : Nat) :
    Lines program [] (.create 0) fun _ : Fin numThreads => .absent where
  ofThread _ := rfl
  ofMain := rfl
  order := List.Pairwise.nil
  behind _ member := absurd member List.not_mem_nil

theorem joined_of_mem_early (member : line ∈ program.early) : line.joined numThreads = 0 := by
  cases program with
  | create =>
      simp only [Program.early, List.mem_cons, List.not_mem_nil, or_false] at member
      rcases member with rfl | rfl | rfl
      · rfl
      · rfl
      · rfl
  | exit | self => cases member

theorem joined_le_of_mem_lines (member : line ∈ program.lines numThreads) :
    line.joined numThreads ≤ numThreads := by
  rcases List.mem_append.mp member with early | behind
  · rw [joined_of_mem_early early]
    exact Nat.zero_le _
  · rcases List.mem_append.mp behind with report | late
    · rw [Program.reports] at report
      split at report
      · rcases List.mem_map.mp report with ⟨i, inRange, rfl⟩
        have below := (List.mem_range'_1.mp inRange).2
        rw [Line.joined]
        omega
      · cases report
    · cases program with
      | create | exit | self =>
          cases List.mem_singleton.mp late
          exact Nat.le_refl _

/-- `main` prints its next line. -/
theorem Lines.write (lines : Lines program printed main worker)
    (left : main.left program numThreads = line :: next.left program numThreads)
    (joined : main.joined numThreads = next.joined numThreads)
    (allowed : line.joined numThreads ≤ next.joined numThreads) :
    Lines program (printed ++ [(none, line)]) next worker where
  ofThread thread := by
    rw [linesOf_concat, if_neg (by simp), List.append_nil]
    exact lines.ofThread thread
  ofMain := by
    rw [linesOf_concat, if_pos rfl, List.append_assoc, List.singleton_append, ← left]
    exact lines.ofMain
  order := by
    rw [List.pairwise_append]
    refine ⟨lines.order, List.pairwise_singleton _ _, fun earlier _ later isLater _ thread => ?_⟩
    rw [List.mem_singleton.mp isLater]
    simp
  behind other member := by
    rcases List.mem_append.mp member with old | new
    · exact joined ▸ lines.behind other old
    · cases List.mem_singleton.mp new
      exact allowed

/-- `main` goes on without a line. -/
theorem Lines.stay (lines : Lines program printed main worker)
    (left : main.left program numThreads = next.left program numThreads)
    (joined : main.joined numThreads ≤ next.joined numThreads) :
    Lines program printed next worker where
  ofThread := lines.ofThread
  ofMain := left ▸ lines.ofMain
  order := lines.order
  behind other member := (lines.behind other member).trans joined

/-- A thread that is not joined prints its next line. -/
theorem Lines.speak (lines : Lines program printed main worker) {left : List Line}
    (workerEq : worker thread = .prints (line :: left))
    (unjoined : main.joined numThreads ≤ thread) :
    Lines program (printed ++ [(some thread, line)]) main
      (Function.update worker thread (.prints left)) where
  ofThread other := by
    have before := lines.ofThread other
    by_cases same : other = thread
    · rw [same, workerEq] at before
      rw [same, linesOf_concat, if_pos rfl, List.append_assoc, Function.update_self]
      exact before
    · rw [linesOf_concat, if_neg (fun equal => same (Option.some.inj equal).symm), List.append_nil,
        Function.update_of_ne same]
      exact before
  ofMain := by
    rw [linesOf_concat, if_neg (by simp), List.append_nil]
    exact lines.ofMain
  order := by
    rw [List.pairwise_append]
    refine ⟨lines.order, List.pairwise_singleton _ _, fun earlier isEarlier later isLater => ?_⟩
    rw [List.mem_singleton.mp isLater]
    rintro isMain other isOther
    cases isOther
    apply Nat.le_trans (lines.behind earlier.2 _) unjoined
    rw [← isMain]
    exact isEarlier
  behind other member := by
    rcases List.mem_append.mp member with old | new
    · exact lines.behind other old
    · cases List.mem_singleton.mp new

/-- A thread goes on without a line. -/
theorem Lines.move (lines : Lines program printed main worker) {moved : Worker}
    (left : moved.left (program.script thread) = (worker thread).left (program.script thread)) :
    Lines program printed main (Function.update worker thread moved) where
  ofThread other := by
    by_cases same : other = thread
    · rw [same, Function.update_self, left]
      exact lines.ofThread thread
    · rw [Function.update_of_ne same]
      exact lines.ofThread other
  ofMain := lines.ofMain
  order := lines.order
  behind := lines.behind

theorem Lines.turns {results : List Result} (lines : Lines program printed main worker)
    (control : Control checked main worker) (blocks : Blocks program results main worker)
    (turns : Turns program worker main next) :
    Lines program printed next worker := by
  cases turns with
  | created outside => exact lines.stay rfl (Nat.le_refl _)
  | toJoins => exact lines.stay rfl (Nat.le_refl _)
  | @joins i inside ended =>
      have bare := (blocks.returns _ _ ended).symm
      exact lines.stay (by simp [Main.left, Program.reports, bare]) (Nat.le_succ _)
  | receives inside ended => exact lines.stay rfl (Nat.le_succ _)
  | @joined i outside =>
      have none : program.reports numThreads i = [] := by
        simp [Program.reports, Nat.sub_eq_zero_of_le outside]
      exact lines.stay (by rw [Main.left, none]; rfl) control.inRange
  | returns => exact lines.stay rfl (Nat.le_refl _)

theorem Says.lines {results : List Result} (written : Says results main line next)
    (lines : Lines program printed main worker) (blocks : Blocks program results main worker) :
    Lines program (printed ++ [(none, line)]) next worker := by
  cases written with
  | @early _ left =>
      refine lines.write rfl rfl ?_
      have split := lines.ofMain
      rw [Main.left, ← List.append_assoc, Program.lines, List.append_cancel_right_eq] at split
      have member : line ∈ program.early := by
        rw [← split]
        simp
      exact Nat.le_of_eq (joined_of_mem_early member)
  | @reports i block result found =>
      rcases blocks.holds i block (Or.inl rfl) with ⟨inside, exited⟩
      have owner := blocks.owner _ _ exited
      rw [found] at owner
      cases owner
      have allocates : program.allocates = true := (blocks.returns _ _ exited).symm
      refine lines.write ?_ rfl (Nat.le_refl _)
      obtain ⟨more, moreEq⟩ := Nat.exists_eq_add_of_lt inside
      have rest : numThreads - i = more + 1 := by omega
      have later : numThreads - (i + 1) = more := by omega
      rw [Main.left, Main.left, Program.reports, Program.reports, if_pos allocates,
        if_pos allocates, rest, later, List.range'_succ]
      rfl
  | @late _ left =>
      refine lines.write rfl rfl ?_
      have split := lines.ofMain
      apply @joined_le_of_mem_lines _ program
      rw [← split, Main.left]
      simp

theorem Moves.lines (moves : Moves program checked state after)
    (control : Control checked state.main state.worker)
    (blocks : Blocks program state.results state.main state.worker)
    (lines : Lines program state.printed state.main state.worker) :
    Lines program after.printed after.main after.worker := by
  cases moves with
  | @creates i mainEq inside =>
      rw [mainEq] at lines control
      have absent := control.uncreated ⟨i, inside⟩ (Nat.le_refl i)
      have moved : Lines program state.printed (.create i)
          (Function.update state.worker ⟨i, inside⟩ (.prints (program.script i))) := by
        apply lines.move
        rw [absent]
        rfl
      exact moved.stay rfl (Nat.le_refl _)
  | skips mainEq inside unchecked =>
      rw [mainEq] at lines
      exact lines.stay rfl (Nat.le_refl _)
  | turns turns => exact lines.turns control blocks turns
  | writes written => exact written.lines lines blocks
  | frees mainEq =>
      rw [mainEq] at lines
      exact lines.stay rfl (Nat.le_refl _)
  | @prints thread line left workerEq =>
      apply lines.speak workerEq
      by_contra joined
      rcases control.joined thread (Nat.lt_of_not_le joined) with ⟨block, exited⟩
      rw [workerEq] at exited
      cases exited
  | exits workerEq | allocates workerEq =>
      apply lines.move
      rw [workerEq]
      rfl

end Lines

/-! ## Every run -/

/-- `main` has ended otherwise than by returning 0. -/
def Main.irregular : Main → Bool
  | .returned status => status != 0
  | .killed | .undefined => true
  | _ => false

/-- In a process that goes on, or in which `main` has returned 0. -/
structure Regular (program : Program) (checked : Bool) (state : State numThreads) : Prop where
  sound : state.main.irregular = false
  control : Control checked state.main state.worker
  blocks : Blocks program state.results state.main state.worker
  lines : Lines program state.printed state.main state.worker

theorem Regular.initial (program : Program) (checked : Bool) (numThreads : Nat) :
    Regular program checked (initial numThreads) where
  sound := rfl
  control := .initial checked numThreads
  blocks := .initial program numThreads
  lines := .initial program numThreads

theorem Turns.sound {worker : Fin numThreads → Worker} {main next : Main}
    (turns : Turns program worker main next) : next.irregular = false := by
  cases turns <;> rfl

theorem Says.sound {results : List Result} {line : Line} {main next : Main}
    (written : Says results main line next) : next.irregular = false := by
  cases written <;> rfl

theorem Moves.sound (moves : Moves program checked state after)
    (sound : state.main.irregular = false) : after.main.irregular = false := by
  cases moves with
  | creates | skips | frees => rfl
  | turns turns => exact turns.sound
  | writes written => exact written.sound
  | prints | exits | allocates => exact sound

theorem Moves.regular (moves : Moves program checked state after)
    (regular : Regular program checked state) : Regular program checked after where
  sound := moves.sound regular.sound
  control := moves.control regular.control
  blocks := moves.blocks regular.control regular.blocks
  lines := moves.lines regular.control regular.blocks regular.lines

end CExamples.Pthread
