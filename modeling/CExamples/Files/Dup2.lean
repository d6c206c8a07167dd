import CExamples.Program.Descriptors
import CExamples.Word.CString
import Mathlib.Data.List.Nodup

/-!
# Redirecting stdout

`files/dup2/main.c`.  `main` creates a temporary file, redirects stdout to it for one
line, and leaves through the label `cleanup` from wherever a call fails.  Each of the
two descriptors has a flag that says whether it is open.  The path has none: the block
removes whatever path the template holds, also one that `mkstemp` has left there
without creating it.
-/

namespace CExamples.Files.Dup2

open CExamples.Program
open CExamples.Word

/-- A line on stderr. -/
inductive Line
  | text (message : String)
  | perror (message : String)
  | size (moment : String) (bytes : Int)
  deriving DecidableEq

/-- How the calls before the label `cleanup` end: the descriptors that `mkstemp` and
`dup` pick, the path that `mkstemp` leaves in the template, the sizes that `fstat` finds,
and whether the other calls succeed. -/
structure Kernel (δ : Type) where
  mkstemp : Option Nat
  left : Text
  file : δ
  fstatBefore : Option Int
  fprintfBefore : Bool
  dup : Option Nat
  dup2 : Bool
  printf : Bool
  fflush : Bool
  fstatAfter : Option Int
  fprintfAfter : Bool

/-- The descriptor table, the existing paths and the variables of `main` that say what
there is to clean up.  `-1` is no descriptor.  `opened` and `closed` are the descriptors
that `main` has opened and closed, in order. -/
structure Held (δ : Type) where
  table : Table δ
  paths : Text → Bool
  templ : Text := ⟨[], List.not_mem_nil⟩
  tempFd : Option Nat := none
  savedStdoutFd : Option Nat := none
  haveTempFd : Bool := false
  haveSavedStdoutFd : Bool := false
  stdoutRedirected : Bool := false
  opened : List Nat := []
  closed : List Nat := []

/-- The state of `main`; `failures` counts the calls that have failed. -/
structure State (δ : Type) where
  held : Held δ
  failed : Bool := false
  failures : Nat := 0
  stderr : List Line := []

variable {δ : Type}

/-! ## The program -/

/-- A call has failed. -/
def State.fail (state : State δ) : State δ :=
  { state with failures := state.failures + 1 }

/-- A message, and `failed = 1`. -/
def State.report (state : State δ) (line : Line) : State δ :=
  { state with failed := true, stderr := state.stderr ++ [line] }

/-- The calls go on, or there is a jump to `cleanup`. -/
abbrev Progress (δ : Type) := Except (State δ)

/-- A call has failed, and `main` reports it and jumps. -/
def jump (state : State δ) (message : String) : Progress δ (State δ) :=
  .error (state.fail.report (.perror message))

/-- `PATH_MAX` -/
def pathMax : Nat :=
  4096

/-- `/tmp/tempfileXXXXXX` -/
def template : Text :=
  ⟨[47, 116, 109, 112, 47, 116, 101, 109, 112, 102, 105, 108, 101, 88, 88, 88, 88, 88, 88],
    by decide⟩

/-- `snprintf(buffer, size, "%s", text)`: the length of the text, and as much of it as
fits. -/
def snprintf (size : Nat) (text : Text) : Int × Text :=
  (text.bytes.length,
    ⟨text.bytes.take (size - 1), fun member => text.noZero (List.mem_of_mem_take member)⟩)

def prepare (state : State δ) : Progress δ (State δ) :=
  let (rc, templ) := snprintf pathMax template
  let state := { state with held := { state.held with templ := templ } }
  if rc < 0 then .error (state.report (.text "snprintf failed\n"))
  else if pathMax ≤ rc.toNat then .error (state.report (.text "template truncated\n"))
  else .ok state

/-- `mkstemp(templ)`: it makes a file at a path that did not exist. -/
def mkstemp (kernel : Kernel δ) (held : Held δ) : Option (Nat × Table δ) :=
  if kernel.left.bytes ≠ [] ∧ held.paths kernel.left = false then
    held.table.allocate kernel.mkstemp kernel.file
  else none

/-- The file is open as `fd`. -/
def Held.create (held : Held δ) (fd : Nat) (table : Table δ) (path : Text) : Held δ :=
  { held with
    table := table
    paths := Function.update held.paths path true
    templ := path
    tempFd := some fd
    haveTempFd := true
    opened := held.opened ++ [fd] }

/-- Stdout is saved as `fd`. -/
def Held.save (held : Held δ) (fd : Nat) (table : Table δ) : Held δ :=
  { held with
    table := table
    savedStdoutFd := some fd
    haveSavedStdoutFd := true
    opened := held.opened ++ [fd] }

def Held.redirect (held : Held δ) (table : Table δ) : Held δ :=
  { held with table := table, stdoutRedirected := true }

def create (kernel : Kernel δ) (state : State δ) : Progress δ (State δ) :=
  match mkstemp kernel state.held with
  | none =>
      jump { state with held := { state.held with templ := kernel.left } } "mkstemp failed"
  | some (fd, table) => .ok { state with held := state.held.create fd table kernel.left }

/-- `fstat` of the temporary file, and its size on stderr. -/
def printSize (moment : String) (size : Option Int) (written : Bool) (state : State δ) :
    Progress δ (State δ) :=
  match size with
  | none => jump state ("fstat " ++ moment ++ " failed")
  | some bytes =>
      if written then .ok { state with stderr := state.stderr ++ [.size moment bytes] }
      else jump state "fprintf stderr failed"

def save (kernel : Kernel δ) (state : State δ) : Progress δ (State δ) :=
  match state.held.table.dup 1 kernel.dup with
  | none => jump state "dup(STDOUT_FILENO) failed"
  | some (fd, table) => .ok { state with held := state.held.save fd table }

/-- `dup2(old, STDOUT_FILENO)` -/
def dup2Stdout (held : Held δ) (old : Option Nat) : Option (Table δ) :=
  old.bind fun old => held.table.dup2 old 1

def redirect (kernel : Kernel δ) (state : State δ) : Progress δ (State δ) :=
  match if kernel.dup2 then dup2Stdout state.held state.held.tempFd else none with
  | none => jump state "dup2 to stdout failed"
  | some table => .ok { state with held := state.held.redirect table }

/-- A call that changes neither descriptors nor paths. -/
def call (succeeds : Bool) (message : String) (state : State δ) : Progress δ (State δ) :=
  if succeeds then .ok state else jump state message

/-- `main` from the creation of the file to the label `cleanup`. -/
def writeRedirected (kernel : Kernel δ) (state : State δ) : Progress δ (State δ) := do
  let state ← printSize "before write" kernel.fstatBefore kernel.fprintfBefore state
  let state ← save kernel state
  let state ← redirect kernel state
  let state ← call kernel.printf "printf failed" state
  let state ← call kernel.fflush "fflush(stdout) failed" state
  printSize "after write" kernel.fstatAfter kernel.fprintfAfter state

/-- `main` up to the label `cleanup`. -/
def acquire (kernel : Kernel δ) (state : State δ) : Progress δ (State δ) := do
  let state ← prepare state
  let state ← create kernel state
  writeRedirected kernel state

def restoreStdout (state : State δ) : State δ :=
  if state.held.stdoutRedirected && state.held.haveSavedStdoutFd then
    match dup2Stdout state.held state.held.savedStdoutFd with
    | none => state.fail.report (.perror "final restore of stdout failed")
    | some table => { state with held := { state.held with table := table } }
  else state

/-- `close(fd)`, reported as a failure with `message`. -/
def close (fd : Option Nat) (message : String) (state : State δ) : State δ :=
  match fd.bind fun fd => (state.held.table.close fd).map (fd, ·) with
  | none => state.fail.report (.perror message)
  | some (fd, table) =>
      { state with held := { state.held with table := table, closed := state.held.closed ++ [fd] } }

def closeSavedStdout (state : State δ) : State δ :=
  if state.held.haveSavedStdoutFd then
    close state.held.savedStdoutFd "close(saved_stdout_fd) failed" state
  else state

def closeTemp (state : State δ) : State δ :=
  if state.held.haveTempFd then close state.held.tempFd "close(temp_fd) failed" state
  else state

/-- `unlink(templ)` can fail only with `ENOENT`, which is not reported. -/
def unlinkTempl (state : State δ) : State δ :=
  if Text.first state.held.templ.bytes ≠ 0 then
    if state.held.paths state.held.templ then
      { state with
        held := { state.held with
          paths := Function.update state.held.paths state.held.templ false } }
    else state.fail
  else state

def cleanup (state : State δ) : State δ :=
  unlinkTempl (closeTemp (closeSavedStdout (restoreStdout state)))

/-- The state in which the label `cleanup` is reached. -/
def atCleanup (kernel : Kernel δ) (state : State δ) : State δ :=
  match acquire kernel state with
  | .ok state => state
  | .error state => state

/-- `main`: its status, and its state at the return. -/
def main (kernel : Kernel δ) (table : Table δ) (paths : Text → Bool) : Nat × State δ :=
  let state := cleanup (atCleanup kernel { held := { table := table, paths := paths } })
  (if state.failed then 1 else 0, state)

/-- `main` leaves behind what it found, has closed once what it opened, and says whether
a call has failed. -/
structure CleansUp (table : Table δ) (paths : Text → Bool) (status : Nat) (state : State δ) :
    Prop where
  stdout : state.held.table 1 = table 1
  table : state.held.table = table
  notOpen : ∀ fd ∈ state.held.opened, state.held.table fd = none
  once : ∀ fd ∈ state.held.opened, state.held.closed.count fd = 1
  own : ∀ fd ∈ state.held.closed, fd ∈ state.held.opened
  paths : state.held.paths = paths
  success : status = 0 ↔ state.failures = 0

/-! ## The calls before the label -/

/-- Where some calls end: with `goes` when they go on, with `jumps` at the label. -/
def Ends (goes jumps : State δ → Prop) : Progress δ (State δ) → Prop
  | .ok state => goes state
  | .error state => jumps state

/-- The flag `failed` says whether a call has failed. -/
def Accounted (state : State δ) : Prop :=
  state.failed = true ↔ state.failures ≠ 0

/-- What `main` starts with. -/
def start (table : Table δ) (paths : Text → Bool) : Held δ where
  table := table
  paths := paths
  templ := template

/-- The temporary file is open. -/
inductive Created (table : Table δ) (paths : Text → Bool) : Held δ → Prop
  | intro (fd : Nat) (file : δ) (path : Text) (free : table fd = none)
      (named : path.bytes ≠ []) (fresh : paths path = false) :
      Created table paths ((start table paths).create fd (table.install fd file) path)

/-- Stdout is saved. -/
inductive Saved (table : Table δ) (paths : Text → Bool) : Held δ → Prop
  | intro (created : Held δ) (fd : Nat) (file : δ) (earlier : Created table paths created)
      (stdout : created.table 1 = some file) (free : created.table fd = none) :
      Saved table paths (created.save fd (created.table.install fd file))

/-- Stdout is redirected. -/
inductive Redirected (table : Table δ) (paths : Text → Bool) : Held δ → Prop
  | intro (saved : Held δ) (file : δ) (earlier : Saved table paths saved) :
      Redirected table paths (saved.redirect (saved.table.install 1 file))

/-- What there can be to clean up once the temporary file exists. -/
inductive Stage (table : Table δ) (paths : Text → Bool) (held : Held δ) : Prop
  | created (stage : Created table paths held)
  | saved (stage : Saved table paths held)
  | redirected (stage : Redirected table paths held)

theorem Ends.bind {goes between jumps : State δ → Prop} {first : Progress δ (State δ)}
    {rest : State δ → Progress δ (State δ)} (ends : Ends between jumps first)
    (next : ∀ state, between state → Ends goes jumps (rest state)) :
    Ends goes jumps (first >>= rest) := by
  cases first with
  | ok state => exact next state ends
  | error state => exact ends

theorem Ends.mono {goes jumps jumps' : State δ → Prop} {progress : Progress δ (State δ)}
    (ends : Ends goes jumps progress) (weaker : ∀ state, jumps state → jumps' state) :
    Ends goes jumps' progress := by
  cases progress with
  | ok state => exact ends
  | error state => exact weaker state ends

section Calls

variable {table : Table δ} {paths : Text → Bool} {kernel : Kernel δ} {state : State δ}

/-- The stage `stage` is reached, and the failures are accounted for. -/
def Reached (stage : Held δ → Prop) (state : State δ) : Prop :=
  stage state.held ∧ Accounted state

theorem jump_ends {goes : State δ → Prop} {stage : Held δ → Prop} {message : String}
    (holds : stage state.held) : Ends goes (Reached stage) (jump state message) :=
  ⟨holds, iff_of_true rfl (Nat.succ_ne_zero _)⟩

theorem call_ends {stage : Held δ → Prop} (reached : Reached stage state) (succeeds : Bool)
    (message : String) : Ends (Reached stage) (Reached stage) (call succeeds message state) := by
  cases succeeds with
  | true => exact reached
  | false => exact jump_ends reached.1

theorem printSize_ends {stage : Held δ → Prop} (reached : Reached stage state) (moment : String)
    (size : Option Int) (written : Bool) :
    Ends (Reached stage) (Reached stage) (printSize moment size written state) := by
  cases size with
  | none => exact jump_ends reached.1
  | some bytes =>
      cases written with
      | true => exact reached
      | false => exact jump_ends reached.1

theorem save_ends (reached : Reached (Created table paths) state) :
    Ends (Reached (Saved table paths)) (Reached (Created table paths)) (save kernel state) := by
  unfold save
  cases dupped : state.held.table.dup 1 kernel.dup with
  | none => exact jump_ends reached.1
  | some result =>
      obtain ⟨fd, table'⟩ := result
      obtain ⟨file, stdout, _, free, rfl⟩ := Table.dup_eq_some.mp dupped
      exact ⟨.intro state.held fd file reached.1 stdout free, reached.2⟩

theorem redirect_ends (reached : Reached (Saved table paths) state) :
    Ends (Reached (Redirected table paths)) (Reached (Saved table paths))
      (redirect kernel state) := by
  unfold redirect
  split
  · exact jump_ends reached.1
  · rename_i table' dupped
    have redirected : dup2Stdout state.held state.held.tempFd = some table' := by
      split at dupped
      · exact dupped
      · cases dupped
    obtain ⟨old, _, dupped⟩ := Option.bind_eq_some_iff.mp redirected
    obtain ⟨file, _, rfl⟩ := Option.map_eq_some_iff.mp dupped
    exact ⟨.intro state.held file reached.1, reached.2⟩

/-- Once the file is created, the label is reached in one of the stages. -/
theorem writeRedirected_ends (reached : Reached (Created table paths) state) :
    Ends (Reached (Redirected table paths)) (Reached (Stage table paths))
      (writeRedirected kernel state) := by
  have created (state : State δ) (reached : Reached (Created table paths) state) :
      Reached (Stage table paths) state := ⟨.created reached.1, reached.2⟩
  have saved (state : State δ) (reached : Reached (Saved table paths) state) :
      Reached (Stage table paths) state := ⟨.saved reached.1, reached.2⟩
  have redirected (state : State δ) (reached : Reached (Redirected table paths) state) :
      Reached (Stage table paths) state := ⟨.redirected reached.1, reached.2⟩
  apply ((printSize_ends reached _ _ _).mono created).bind
  intro state reached
  apply ((save_ends reached).mono created).bind
  intro state reached
  apply ((redirect_ends reached).mono saved).bind
  intro state reached
  apply ((call_ends reached _ _).mono redirected).bind
  intro state reached
  apply ((call_ends reached _ _).mono redirected).bind
  intro state reached
  exact (printSize_ends reached _ _ _).mono redirected

end Calls

/-! ## The cleanup block -/

section Cleanup

variable {table : Table δ} {paths : Text → Bool} {held : Held δ} {state : State δ}

theorem close_eq {before : Table δ} {fd : Nat} {file : δ} (message : String)
    (free : before fd = none) (opened : state.held.table = before.install fd file) :
    close (some fd) message state =
      { state with held := { state.held with
          table := before, closed := state.held.closed ++ [fd] } } := by
  simp only [close, opened, Option.bind_some, Table.close_install free, Option.map_some]

theorem unlinkTempl_of_empty (empty : state.held.templ.bytes = []) : unlinkTempl state = state := by
  rw [unlinkTempl, if_neg]
  exact not_not.mpr ((Text.first_eq_zero_iff state.held.templ.noZero).mpr empty)

section Named

variable (named : state.held.templ.bytes ≠ [])

include named

theorem first_templ_ne_zero : Text.first state.held.templ.bytes ≠ 0 :=
  fun zero => named ((Text.first_eq_zero_iff state.held.templ.noZero).mp zero)

theorem unlinkTempl_of_missing (missing : state.held.paths state.held.templ = false) :
    unlinkTempl state = state.fail := by
  rw [unlinkTempl, if_pos (first_templ_ne_zero named), if_neg]
  rw [missing]
  exact Bool.false_ne_true

theorem unlinkTempl_of_existing (existing : state.held.paths state.held.templ = true) :
    unlinkTempl state = { state with held := { state.held with
      paths := Function.update state.held.paths state.held.templ false } } := by
  rw [unlinkTempl, if_pos (first_templ_ne_zero named), if_pos existing]

/-- Removing a path that is new. -/
theorem unlinkTempl_of_created (paths : Text → Bool) (fresh : paths state.held.templ = false)
    (created : state.held.paths = Function.update paths state.held.templ true) :
    unlinkTempl state = { state with held := { state.held with paths := paths } } := by
  have back : Function.update paths state.held.templ false = paths := by
    rw [← fresh, Function.update_eq_self]
  have existing : state.held.paths state.held.templ = true := by
    rw [created, Function.update_self]
  rw [unlinkTempl_of_existing named existing, created, Function.update_idem, back]

end Named

/-- The block gives everything back, and closes what was opened in the opposite order. -/
structure GivesBack (table : Table δ) (paths : Text → Bool) (state : State δ) : Prop where
  cleaned : cleanup state = { state with held := { state.held with
    table := table, paths := paths, closed := state.held.opened.reverse } }
  apart : state.held.opened.Nodup
  free : ∀ fd ∈ state.held.opened, table fd = none

/-- Two states of `main` have the same temporary file. -/
structure SameTemp (held held' : Held δ) : Prop where
  table : held.table = held'.table
  paths : held.paths = held'.paths
  templ : held.templ = held'.templ
  tempFd : held.tempFd = held'.tempFd
  haveTempFd : held.haveTempFd = held'.haveTempFd

/-- The last two parts of the block undo the creation of the file. -/
theorem removeTemp_eq (created : Created table paths held) (same : SameTemp state.held held) :
    unlinkTempl (closeTemp state) = { state with held := { state.held with
      table := table, paths := paths, closed := state.held.closed ++ held.opened } } := by
  obtain ⟨fd, file, path, free, named, fresh⟩ := created
  have closed : closeTemp state = { state with held := { state.held with
      table := table, closed := state.held.closed ++ [fd] } } := by
    rw [closeTemp, same.haveTempFd, same.tempFd]
    exact close_eq _ free same.table
  have namedTempl : state.held.templ.bytes ≠ [] := by
    rw [same.templ]
    exact named
  have freshTempl : paths state.held.templ = false := by
    rw [same.templ]
    exact fresh
  have createdTempl : state.held.paths = Function.update paths state.held.templ true := by
    rw [same.paths, same.templ]
    rfl
  rw [closed]
  refine (unlinkTempl_of_created ?_ paths ?_ ?_).trans rfl
  · exact namedTempl
  · exact freshTempl
  · exact createdTempl

theorem Created.givesBack (created : Created table paths state.held) :
    GivesBack table paths state := by
  have removed := removeTemp_eq created ⟨rfl, rfl, rfl, rfl, rfl⟩
  obtain ⟨held, failed, failures, stderr⟩ := state
  obtain ⟨fd, file, path, free, named, fresh⟩ := created
  constructor
  · exact removed
  · exact List.pairwise_singleton _ fd
  · intro other member
    rw [List.mem_singleton.mp member]
    exact free

/-- The block behind the restoring of stdout, which may have been redirected or not. -/
theorem Saved.release_eq {redirected : Bool} (saved : Saved table paths held)
    (same : state.held = { held with stdoutRedirected := redirected }) :
    unlinkTempl (closeTemp (closeSavedStdout state)) = { state with held := { state.held with
      table := table, paths := paths, closed := held.opened.reverse } } := by
  obtain ⟨created, fd, file, earlier, stdout, free⟩ := saved
  obtain ⟨held, failed, failures, stderr⟩ := state
  obtain rfl := same
  let before : State δ :=
    { held := { created.save fd (created.table.install fd file) with
        stdoutRedirected := redirected }
      failed := failed
      failures := failures
      stderr := stderr }
  have opened : before.held.table = created.table.install fd file := rfl
  change unlinkTempl (closeTemp (close (some fd) "close(saved_stdout_fd) failed" before)) = _
  rw [close_eq _ free opened, removeTemp_eq earlier ⟨rfl, rfl, rfl, rfl, rfl⟩]
  obtain ⟨tempFd, tempFile, path, _, _, _⟩ := earlier
  rfl

/-- The two descriptors are different, and both were free. -/
theorem Saved.opened (saved : Saved table paths held) :
    held.opened.Nodup ∧ ∀ fd ∈ held.opened, table fd = none := by
  obtain ⟨created, fd, file, earlier, stdout, free⟩ := saved
  obtain ⟨tempFd, tempFile, path, tempFree, _, _⟩ := earlier
  change table.install tempFd tempFile fd = none at free
  have apart : fd ≠ tempFd := by
    rintro rfl
    rw [Table.install_self] at free
    cases free
  rw [Table.install_of_ne apart] at free
  change [tempFd, fd].Nodup ∧ ∀ other ∈ [tempFd, fd], table other = none
  constructor
  · exact List.nodup_cons.mpr ⟨fun member => apart (List.mem_singleton.mp member).symm,
      List.pairwise_singleton _ fd⟩
  · intro other member
    rcases List.mem_cons.mp member with rfl | member
    · exact tempFree
    · rw [List.mem_singleton.mp member]
      exact free

theorem Saved.givesBack (saved : Saved table paths state.held) :
    GivesBack table paths state := by
  have same : state.held =
      { state.held with stdoutRedirected := state.held.stdoutRedirected } := rfl
  have released := saved.release_eq same
  have opened := saved.opened
  have notRedirected : state.held.stdoutRedirected = false := by
    obtain ⟨held, failed, failures, stderr⟩ := state
    obtain ⟨created, fd, file, ⟨tempFd, tempFile, path, _, _, _⟩, _, _⟩ := saved
    rfl
  constructor
  · rw [cleanup, restoreStdout, notRedirected]
    exact released
  · exact opened.1
  · exact opened.2

/-- Restoring stdout gives back the table of before the redirection. -/
theorem Saved.restore (saved : Saved table paths held) {file : δ}
    (same : state.held = held.redirect (held.table.install 1 file)) :
    restoreStdout state = { state with held := { held with stdoutRedirected := true } } := by
  obtain ⟨created, fd, stdoutFile, earlier, stdout, free⟩ := saved
  have apart : fd ≠ 1 := by
    rintro rfl
    rw [stdout] at free
    cases free
  have copied : ((created.table.install fd stdoutFile).install 1 file) fd = some stdoutFile := by
    rw [Table.install_of_ne apart, Table.install_self]
  have back : (created.table.install fd stdoutFile).install 1 stdoutFile =
      created.table.install fd stdoutFile := by
    apply Table.install_eq_self
    rw [Table.install_of_ne apart.symm]
    exact stdout
  have restored : dup2Stdout state.held state.held.savedStdoutFd =
      some (created.table.install fd stdoutFile) := by
    rw [same]
    change ((created.table.install fd stdoutFile).install 1 file).dup2 fd 1 = _
    rw [Table.dup2_of_open copied]
    exact congrArg some ((Table.install_install stdoutFile).trans back)
  have flags : (state.held.stdoutRedirected && state.held.haveSavedStdoutFd) = true := by
    rw [same]
    rfl
  rw [restoreStdout, if_pos flags, restored, same]
  rfl

theorem Redirected.givesBack (redirected : Redirected table paths state.held) :
    GivesBack table paths state := by
  generalize same : state.held = held at redirected
  obtain ⟨saved, file, earlier⟩ := redirected
  have restored := earlier.restore same
  have opened : state.held.opened = saved.opened := by
    rw [same]
    rfl
  constructor
  · rw [cleanup, restored, earlier.release_eq rfl, opened, same]
    rfl
  · rw [opened]
    exact earlier.opened.1
  · rw [opened]
    exact earlier.opened.2

theorem Stage.givesBack (stage : Stage table paths state.held) : GivesBack table paths state := by
  cases stage with
  | created stage => exact stage.givesBack
  | saved stage => exact stage.givesBack
  | redirected stage => exact stage.givesBack

theorem Accounted.status_eq_zero_iff (accounted : Accounted state) :
    (if state.failed then 1 else 0) = 0 ↔ state.failures = 0 := by
  cases failed : state.failed with
  | true => exact iff_of_false Nat.one_ne_zero (accounted.mp failed)
  | false =>
      refine iff_of_true rfl ?_
      by_contra failures
      rw [accounted.mpr failures] at failed
      cases failed

theorem GivesBack.cleansUp (givesBack : GivesBack table paths state)
    (accounted : Accounted state) :
    CleansUp table paths (if (cleanup state).failed then 1 else 0) (cleanup state) := by
  rw [givesBack.cleaned]
  constructor
  · rfl
  · rfl
  · exact givesBack.free
  · intro fd member
    exact List.count_eq_one_of_mem (List.nodup_reverse.mpr givesBack.apart)
      (List.mem_reverse.mpr member)
  · exact fun fd member => List.mem_reverse.mp member
  · rfl
  · exact accounted.status_eq_zero_iff

end Cleanup

/-! ## All runs -/

section Main

variable {table : Table δ} {paths : Text → Bool} {kernel : Kernel δ}

/-- The template fits into its buffer. -/
theorem acquire_eq : acquire kernel { held := { table := table, paths := paths } } =
    create kernel { held := start table paths } >>= writeRedirected kernel := by
  have prepared : prepare { held := { table := table, paths := paths } } =
      .ok { held := start table paths } := by
    rfl
  rw [acquire, prepared]
  rfl

theorem Ends.atCleanup {goes goal : State δ → Prop} {state : State δ}
    (ends : Ends goes goal (acquire kernel state)) (weaker : ∀ state, goes state → goal state) :
    goal (atCleanup kernel state) := by
  unfold Dup2.atCleanup
  cases acquired : acquire kernel state with
  | ok state =>
      rw [acquired] at ends
      exact weaker state ends
  | error state =>
      rw [acquired] at ends
      exact ends

/-- Once `mkstemp` has made a file, everything is given back. -/
theorem cleansUp_of_mkstemp {fd : Nat} {table' : Table δ}
    (made : mkstemp kernel (start table paths) = some (fd, table')) :
    CleansUp table paths (main kernel table paths).1 (main kernel table paths).2 := by
  have creates : create kernel { held := start table paths } =
      .ok { held := (start table paths).create fd table' kernel.left } := by
    rw [create, made]
  have created : Created table paths ((start table paths).create fd table' kernel.left) := by
    unfold mkstemp at made
    split at made
    · rename_i fresh
      obtain ⟨_, free, rfl⟩ := Table.allocate_eq_some.mp made
      exact .intro fd kernel.file kernel.left free fresh.1 fresh.2
    · cases made
  have ends : Ends (Reached (Redirected table paths)) (Reached (Stage table paths))
      (acquire kernel { held := { table := table, paths := paths } }) := by
    rw [acquire_eq, creates]
    exact writeRedirected_ends ⟨created, by simp [Accounted]⟩
  have reached := ends.atCleanup fun state reached => ⟨.redirected reached.1, reached.2⟩
  exact reached.1.givesBack.cleansUp reached.2

/-- The state at the label if `mkstemp` has failed. -/
def unmade (table : Table δ) (paths : Text → Bool) (left : Text) : State δ where
  held := { table := table, paths := paths, templ := left }
  failed := true
  failures := 1
  stderr := [.perror "mkstemp failed"]

/-- There is nothing to close then. -/
theorem cleanup_unmade (left : Text) :
    cleanup (unmade table paths left) = unlinkTempl (unmade table paths left) :=
  rfl

/-- A block that changes nothing but the count of the failed calls gives everything
back. -/
theorem cleansUp_unmade {left : Text} {failures : Nat} (some_failed : failures ≠ 0) :
    CleansUp table paths 1 { unmade table paths left with failures := failures } := by
  constructor
  · rfl
  · rfl
  · exact fun fd member => absurd member List.not_mem_nil
  · exact fun fd member => absurd member List.not_mem_nil
  · exact fun fd member => absurd member List.not_mem_nil
  · rfl
  · exact iff_of_false Nat.one_ne_zero some_failed

/-- If it has made none, the path that it leaves is removed all the same. -/
theorem cleansUp_iff_of_mkstemp_eq_none (failed : mkstemp kernel (start table paths) = none) :
    CleansUp table paths (main kernel table paths).1 (main kernel table paths).2 ↔
      kernel.left.bytes = [] ∨ paths kernel.left = false := by
  have reached : atCleanup kernel { held := { table := table, paths := paths } } =
      unmade table paths kernel.left := by
    rw [atCleanup, acquire_eq, create, failed]
    rfl
  rw [main, reached, cleanup_unmade]
  by_cases empty : kernel.left.bytes = []
  · rw [unlinkTempl_of_empty empty]
    exact iff_of_true (cleansUp_unmade Nat.one_ne_zero) (Or.inl empty)
  · rw [or_iff_right empty]
    cases existing : paths kernel.left with
    | false =>
        rw [unlinkTempl_of_missing empty existing]
        exact iff_of_true (cleansUp_unmade (Nat.succ_ne_zero 1)) rfl
    | true =>
        rw [unlinkTempl_of_existing empty existing]
        refine iff_of_false ?_ (Bool.noConfusion ·)
        intro cleansUp
        have kept := congrFun cleansUp.paths kernel.left
        change Function.update paths kernel.left false kernel.left = _ at kept
        rw [Function.update_self, existing] at kept
        cases kept

/-- In which runs `main` cleans up what it has made and nothing else. -/
theorem cleansUp_iff (kernel : Kernel δ) (table : Table δ) (paths : Text → Bool) :
    CleansUp table paths (main kernel table paths).1 (main kernel table paths).2 ↔
      kernel.left.bytes = [] ∨ paths kernel.left = false := by
  cases made : mkstemp kernel (start table paths) with
  | none => exact cleansUp_iff_of_mkstemp_eq_none made
  | some result =>
      refine iff_of_true (cleansUp_of_mkstemp made) (Or.inr ?_)
      unfold mkstemp at made
      split at made
      · rename_i fresh
        exact fresh.2
      · cases made

end Main

/-- `mkstemp` fails and leaves a path that exists, and `main` removes it. -/
theorem existingPath_removed :
    let kernel : Kernel Unit :=
      { mkstemp := none, left := template, file := (), fstatBefore := none,
        fprintfBefore := true, dup := none, dup2 := true, printf := true, fflush := true,
        fstatAfter := none, fprintfAfter := true }
    let table : Table Unit := fun fd => if fd < 3 then some () else none
    let paths : Text → Bool := fun path => path = template
    (main kernel table paths).2.held.paths template = false ∧ paths template = true ∧
      ¬CleansUp table paths (main kernel table paths).1 (main kernel table paths).2 := by
  intro kernel table paths
  have removed : (main kernel table paths).2.held.paths template = false := by
    rfl
  refine ⟨removed, rfl, ?_⟩
  intro cleansUp
  rw [cleansUp.paths] at removed
  cases removed

end CExamples.Files.Dup2
