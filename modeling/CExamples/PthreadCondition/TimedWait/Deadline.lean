import CExamples.TimeT

/-!
# The deadline

`pthread-condition/pthread_cond_timedwait/main.c`.  The program adds the seconds given
with `-m` to the current time.  The parser accepts all numbers of a `time_t`, so the sum
overflows for the numbers above the time that is left until the largest `time_t`.
-/

namespace CExamples.PthreadCondition.TimedWait

open CExamples.Number
open CExamples.Word

def unsignedIntRejections : Rejections where
  parsing := .usage "Error parsing unsigned integer."
  invalid := .usage "Invalid characters in input."
  outOfRange := .usage "Unsigned integer out of range."

/-- `parse_unsigned_int` -/
def parseUnsignedInt (str : Text) : Except Rejection UInt32 :=
  (parseUnsigned unsignedIntRejections 4294967295 str).map UInt64.toUInt32

/-- What `handle_arguments` sets. -/
structure Arguments where
  mainSeconds : Int64
  threadSeconds : UInt32
  deriving DecidableEq

/-- `handle_arguments` -/
def handleArguments (mainSeconds threadSeconds : Option Text) : Except Rejection Arguments :=
  match mainSeconds, threadSeconds with
  | none, _ => .error (.usage "main seconds or nanoseconds are required.")
  | some _, none => .error (.usage "thread seconds or nanoseconds are required.")
  | some mainSeconds, some threadSeconds => do
      let main ← parseSeconds mainSeconds
      let thread ← parseUnsignedInt threadSeconds
      pure { mainSeconds := main, threadSeconds := thread }

/-- `abs_timeout.tv_sec += main_seconds`, unless the sum overflows. -/
def deadline (now : Timespec) (mainSeconds : Int64) : Option Timespec :=
  let sum := now.sec.toInt + mainSeconds.toInt
  if -2 ^ 63 ≤ sum ∧ sum < 2 ^ 63 then some { now with sec := now.sec + mainSeconds } else none

/-- Whatever `parse_time_t` accepts can be added to the current time. -/
def DeadlineFits (mainSeconds : Text) (now : Timespec) : Prop :=
  ∀ min max seconds, getTimeTMin = .ok min → getTimeTMax = .ok max →
    parseTimeT min max mainSeconds = .ok seconds → ∃ time, deadline now seconds = some time

/-- The string is a numeral of a `time_t` that reaches beyond the largest one. -/
def Overflows (mainSeconds : Text) (now : Timespec) : Prop :=
  ∃ value, Denotes mainSeconds.bytes value ∧ value < 2 ^ 63 ∧ 2 ^ 63 ≤ now.sec.toInt + value

/-- Which sums are times. -/
theorem deadline_isSome_iff {now : Timespec} {seconds : Int64} (started : 0 ≤ now.sec) :
    (∃ time, deadline now seconds = some time) ↔ now.sec.toInt + seconds.toInt < 2 ^ 63 := by
  have low := seconds.le_toInt
  have notNegative : 0 ≤ now.sec.toInt := Int64.le_iff_toInt_le.mp started
  rw [deadline]
  constructor
  · rintro ⟨time, fits⟩
    split at fits
    · rename_i within
      exact within.2
    · cases fits
  · intro high
    rw [if_pos ⟨by omega, high⟩]
    exact ⟨_, rfl⟩

/-- The deadline can be computed if the string does not overflow. -/
theorem exists_deadline {mainSeconds : Text} {now : Timespec} {seconds : Int64}
    (started : 0 ≤ now.sec) (notBeyond : ¬Overflows mainSeconds now)
    (accepted : parseSeconds mainSeconds = .ok seconds) :
    ∃ time, deadline now seconds = some time := by
  have high := now.sec.toInt_lt
  rw [deadline_isSome_iff started]
  apply Int.not_le.mp
  intro beyond
  rcases parseSeconds_eq_ok_iff.mp accepted with ⟨_, rfl⟩ | denotes
  · have zero : Int64.toInt 0 = 0 := rfl
    omega
  · exact notBeyond ⟨_, denotes, seconds.toInt_lt, beyond⟩

/-- What `handle_arguments` has parsed can be added, if the string given with `-m` does not
overflow. -/
theorem deadline_of_handleArguments {mainSeconds threadSeconds : Option Text}
    {arguments : Arguments} {now : Timespec} (started : 0 ≤ now.sec)
    (accepted : handleArguments mainSeconds threadSeconds = .ok arguments)
    (notBeyond : ∀ str, mainSeconds = some str → ¬Overflows str now) :
    ∃ time, deadline now arguments.mainSeconds = some time := by
  unfold handleArguments at accepted
  split at accepted
  · cases accepted
  · cases accepted
  · rename_i mainStr threadStr
    rcases bind_eq_ok_iff.mp accepted with ⟨main, parsed, rest⟩
    rcases bind_eq_ok_iff.mp rest with ⟨thread, _, result⟩
    cases result
    exact exists_deadline started (notBeyond mainStr rfl) parsed

/-- The deadline can be computed unless the string is a number of seconds beyond the last
time. -/
theorem deadlineFits_iff (mainSeconds : Text) {now : Timespec} (started : 0 ≤ now.sec) :
    DeadlineFits mainSeconds now ↔ ¬Overflows mainSeconds now := by
  constructor
  · rintro fits ⟨value, denotes, small, beyond⟩
    have high := now.sec.toInt_lt
    have same : (Int64.ofInt value).toInt = value :=
      Int64.toInt_ofInt_of_le (by omega) small
    have accepted : parseSeconds mainSeconds = .ok (Int64.ofInt value) := by
      rw [parseSeconds_eq_ok_iff, same]
      exact Or.inr denotes
    have below := (deadline_isSome_iff started).mp (fits _ _ _ rfl rfl accepted)
    rw [same] at below
    omega
  · intro notBeyond min max seconds minEq maxEq accepted
    cases minEq
    cases maxEq
    exact exists_deadline started notBeyond accepted

theorem fiveSeconds_fit :
    DeadlineFits ⟨[53], by decide⟩ { sec := 1700000000, nsec := 0 } ↔
      ¬Overflows ⟨[53], by decide⟩ { sec := 1700000000, nsec := 0 } :=
  deadlineFits_iff _ (by decide)

/-- One second after the epoch the largest `time_t` is too much. -/
theorem largestSeconds_overflow :
    ¬DeadlineFits
      ⟨[57, 50, 50, 51, 51, 55, 50, 48, 51, 54, 56, 53, 52, 55, 55, 53, 56, 48, 55], by decide⟩
      { sec := 1, nsec := 0 } := by
  intro fits
  rcases fits Int64.minValue Int64.maxValue Int64.maxValue rfl rfl rfl with ⟨time, sum⟩
  cases sum

end CExamples.PthreadCondition.TimedWait
