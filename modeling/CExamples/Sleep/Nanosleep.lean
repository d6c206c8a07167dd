import CExamples.TimeT

/-!
# Sleeping through interruptions

`sleep/nanosleep/main.c`.  The program sleeps for the time on its command line and, when
a signal interrupts `nanosleep`, sleeps for what remains.  What is still to be slept and
what has been slept add up to the same time before every call.
-/

namespace CExamples.Sleep.Nanosleep

open CExamples.Number
open CExamples.Word

/-- `EINTR` -/
def eintr : Nat :=
  4

/-- `EINVAL` -/
def einval : Nat :=
  22

/-- A `struct timespec` for which one can sleep. -/
structure Valid (tim : Timespec) : Prop where
  sec : 0 ≤ tim.sec
  nsec : 0 ≤ tim.nsec
  carried : tim.nsec < 1000000000

instance (tim : Timespec) : Decidable (Valid tim) :=
  decidable_of_iff (0 ≤ tim.sec ∧ 0 ≤ tim.nsec ∧ tim.nsec < 1000000000)
    ⟨fun valid => ⟨valid.1, valid.2.1, valid.2.2⟩,
      fun valid => ⟨valid.sec, valid.nsec, valid.carried⟩⟩

/-- The nanoseconds of a `struct timespec`. -/
def nanoseconds (tim : Timespec) : Int :=
  tim.sec.toInt * 1000000000 + tim.nsec.toInt

/-- The `struct timespec` of a time in nanoseconds, normalised. -/
def normalised (time : Int) : Timespec where
  sec := Int64.ofInt (time / 1000000000)
  nsec := Int64.ofInt (time % 1000000000)

/-- What a call of `nanosleep` returns and leaves in `errno` and `rem`, and the nanoseconds
that it has slept. -/
structure Returned where
  result : Int
  errno : Nat
  rem : Timespec
  slept : Int

/-- `nanosleep(&tim, &rem)`, where a signal arrives at `moment`, or none does. -/
def nanosleep (tim rem : Timespec) (moment : Option Nat) : Returned :=
  if Valid tim then
    match moment with
    | none => { result := 0, errno := 0, rem := rem, slept := nanoseconds tim }
    | some delay =>
        if delay < nanoseconds tim then
          { result := -1
            errno := eintr
            rem := normalised (nanoseconds tim - delay)
            slept := delay }
        else { result := 0, errno := 0, rem := rem, slept := nanoseconds tim }
  else { result := -1, errno := einval, rem := rem, slept := 0 }

/-- How `main` goes on: it sleeps, it has printed `Program woke up!`, or it has returned
`EXIT_FAILURE` after `perror("nanosleep")`. -/
inductive Status
  | sleeping
  | wokeUp
  | failed (errno : Nat)
  deriving DecidableEq

/-- The times passed to `nanosleep`, the nanoseconds slept in each call, and how `main`
goes on. -/
structure Run where
  calls : List Timespec
  slept : List Int
  status : Status
  deriving DecidableEq

/-- The loop of `main`, call by call. -/
def loop (tim rem : Timespec) : List (Option Nat) → Run
  | [] => { calls := [], slept := [], status := .sleeping }
  | moment :: later =>
      let returned := nanosleep tim rem moment
      if returned.result = -1 then
        if returned.errno = eintr then
          let run := loop returned.rem returned.rem later
          { run with calls := tim :: run.calls, slept := returned.slept :: run.slept }
        else
          { calls := [tim], slept := [returned.slept], status := .failed returned.errno }
      else { calls := [tim], slept := [returned.slept], status := .wokeUp }

def longRejections : Rejections where
  parsing := .usage "Error parsing unsigned integer."
  invalid := .usage "Invalid characters in input."
  outOfRange := .usage "Unsigned integer out of range for signed long."

/-- `parse_long` -/
def parseLong (str : Text) : Except Rejection Int64 :=
  parseSigned longRejections Int64.minValue Int64.maxValue str

/-- A number that is 0 if it is not on the command line. -/
def optional (parse : Text → Except Rejection Int64) : Option Text → Except Rejection Int64
  | none => .ok 0
  | some str => parse str

/-- `handle_arguments` -/
def handleArguments (seconds nanoseconds : Option Text) : Except Rejection Timespec :=
  if seconds = none ∧ nanoseconds = none then
    .error (.usage "seconds or nanoseconds are required.")
  else do
    let sec ← optional parseSeconds seconds
    let nsec ← optional parseLong nanoseconds
    pure { sec := sec, nsec := nsec }

/-- `main`, where `rem` is not initialised and signals arrive at `moments`. -/
def main (seconds nanoseconds : Option Text) (rem : Timespec) (moments : List (Option Nat)) :
    Except Rejection Run := do
  let tim ← handleArguments seconds nanoseconds
  pure (loop tim rem moments)

/-- Every call sleeps for longer than the signal takes that interrupts it. -/
def Interrupts : Int → List Nat → Prop
  | _, [] => True
  | time, delay :: later => (delay : Int) < time ∧ Interrupts (time - delay) later

/-- The signals that interrupt the calls, and then no signal. -/
def moments (delays : List Nat) : List (Option Nat) :=
  delays.map some ++ [none]

/-- A run that has slept for `time` in `calls` calls. -/
structure SleepsFor (time : Int) (calls : Nat) (run : Run) : Prop where
  woke : run.status = .wokeUp
  valid : ∀ tim ∈ run.calls, Valid tim
  counted : run.calls.length = calls
  slept : run.slept.sum = time

/-! ## What remains -/

theorem Valid.nanoseconds_lt {tim : Timespec} (valid : Valid tim) :
    nanoseconds tim < 9223372036854775808 * 1000000000 := by
  have sec : tim.sec.toInt < 9223372036854775808 := tim.sec.toInt_lt
  have nsec : tim.nsec.toInt < 1000000000 := Int64.lt_iff_toInt_lt.mp valid.carried
  rw [nanoseconds]
  omega

section Normalised

variable {time : Int}

theorem toInt_normalised_sec (notNegative : 0 ≤ time) (small : time < 9223372036854775808 * 1000000000) :
    (normalised time).sec.toInt = time / 1000000000 := by
  apply Int64.toInt_ofInt_of_le
  · change -9223372036854775808 ≤ _
    omega
  · change _ < (9223372036854775808 : Int)
    omega

theorem toInt_normalised_nsec (time : Int) :
    (normalised time).nsec.toInt = time % 1000000000 := by
  apply Int64.toInt_ofInt_of_le
  · change -9223372036854775808 ≤ _
    omega
  · change _ < (9223372036854775808 : Int)
    omega

theorem nanoseconds_normalised (notNegative : 0 ≤ time)
    (small : time < 9223372036854775808 * 1000000000) : nanoseconds (normalised time) = time := by
  rw [nanoseconds, toInt_normalised_sec notNegative small, toInt_normalised_nsec]
  omega

theorem valid_normalised (notNegative : 0 ≤ time)
    (small : time < 9223372036854775808 * 1000000000) : Valid (normalised time) := by
  constructor
  · rw [Int64.le_iff_toInt_le, toInt_normalised_sec notNegative small]
    exact Int.ediv_nonneg notNegative (by decide)
  · rw [Int64.le_iff_toInt_le, toInt_normalised_nsec]
    exact Int.emod_nonneg time (by decide)
  · rw [Int64.lt_iff_toInt_lt, toInt_normalised_nsec]
    exact Int.emod_lt_of_pos time (by decide)

end Normalised

/-! ## One call -/

section Call

variable {tim : Timespec}

theorem nanosleep_through (valid : Valid tim) (rem : Timespec) :
    nanosleep tim rem none =
      { result := 0, errno := 0, rem := rem, slept := nanoseconds tim } :=
  if_pos valid

theorem nanosleep_interrupted (valid : Valid tim) (rem : Timespec) {delay : Nat}
    (early : delay < nanoseconds tim) :
    nanosleep tim rem (some delay) =
      { result := -1
        errno := eintr
        rem := normalised (nanoseconds tim - delay)
        slept := delay } :=
  (if_pos valid).trans (if_pos early)

theorem nanosleep_invalid (invalid : ¬Valid tim) (rem : Timespec) (moment : Option Nat) :
    nanosleep tim rem moment = { result := -1, errno := einval, rem := rem, slept := 0 } :=
  if_neg invalid

end Call

/-! ## The loop -/

/-- What remains after an interruption is a valid time. -/
theorem Valid.remains {tim : Timespec} (valid : Valid tim) {delay : Nat}
    (early : delay < nanoseconds tim) :
    Valid (normalised (nanoseconds tim - delay)) ∧
      nanoseconds (normalised (nanoseconds tim - delay)) = nanoseconds tim - delay := by
  have high := valid.nanoseconds_lt
  have notNegative : 0 ≤ nanoseconds tim - delay := Int.sub_nonneg_of_le (Int.le_of_lt early)
  have small : nanoseconds tim - delay < 9223372036854775808 * 1000000000 := by omega
  constructor
  · exact valid_normalised notNegative small
  · exact nanoseconds_normalised notNegative small

/-- A call that is interrupted goes on with what remains. -/
theorem loop_interrupted {tim : Timespec} (valid : Valid tim) (rem : Timespec) {delay : Nat}
    (early : delay < nanoseconds tim) (later : List (Option Nat)) :
    loop tim rem (some delay :: later) =
      let rest := normalised (nanoseconds tim - delay)
      let run := loop rest rest later
      { run with calls := tim :: run.calls, slept := (delay : Int) :: run.slept } := by
  rw [loop, nanosleep_interrupted valid rem early]
  rfl

/-- A call in front of a run that sleeps for the rest. -/
theorem SleepsFor.interrupted {tim : Timespec} (valid : Valid tim) {delay calls : Nat} {run : Run}
    (sleeps : SleepsFor (nanoseconds tim - delay) calls run) :
    SleepsFor (nanoseconds tim) (calls + 1)
      { run with calls := tim :: run.calls, slept := (delay : Int) :: run.slept } := by
  constructor
  · exact sleeps.woke
  · intro call member
    rcases List.mem_cons.mp member with first | afterwards
    · rw [first]
      exact valid
    · exact sleeps.valid call afterwards
  · exact congrArg Nat.succ sleeps.counted
  · rw [List.sum_cons, sleeps.slept, Int.add_comm]
    exact Int.sub_add_cancel _ _

/-- What is still to be slept is valid, and with what has been slept it is the time that
was to be slept. -/
theorem loop_sleepsFor {tim : Timespec} (valid : Valid tim) (rem : Timespec) {delays : List Nat}
    (interrupts : Interrupts (nanoseconds tim) delays) :
    SleepsFor (nanoseconds tim) (delays.length + 1) (loop tim rem (moments delays)) := by
  induction delays generalizing tim rem with
  | nil =>
      have run : loop tim rem (moments []) =
          { calls := [tim], slept := [nanoseconds tim], status := .wokeUp } := by
        change loop tim rem [none] = _
        rw [loop, nanosleep_through valid]
        rfl
      rw [run]
      constructor
      · rfl
      · intro call member
        rw [List.mem_singleton.mp member]
        exact valid
      · rfl
      · exact Int.add_zero _
  | cons delay later ih =>
      rcases valid.remains interrupts.1 with ⟨validRest, remains⟩
      have sleeps := ih validRest (normalised (nanoseconds tim - delay))
        (by
          rw [remains]
          exact interrupts.2)
      rw [remains] at sleeps
      change SleepsFor _ _ (loop tim rem (some delay :: moments later))
      rw [loop_interrupted valid rem interrupts.1]
      exact sleeps.interrupted valid

/-- An invalid time is passed to one call, which does not sleep. -/
theorem loop_invalid {tim : Timespec} (invalid : ¬Valid tim) (rem : Timespec)
    (moment : Option Nat) (later : List (Option Nat)) :
    loop tim rem (moment :: later) =
      { calls := [tim], slept := [0], status := .failed einval } := by
  rw [loop, nanosleep_invalid invalid]
  rfl

end CExamples.Sleep.Nanosleep
