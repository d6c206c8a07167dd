import CExamples.Number.Strtoimax

/-!
# Seconds on the command line

`get_time_t_min`, `get_time_t_max` and `parse_time_t` stand with the same bodies in the
programs of `sleep/nanosleep` and `pthread-condition/pthread_cond_timedwait`.  Their
bounds are those of the type, so they exclude nothing that `strtoimax` converts.
-/

namespace CExamples

open CExamples.Number
open CExamples.Word

/-- `struct timespec` -/
structure Timespec where
  sec : Int64
  nsec : Int64
  deriving DecidableEq

/-- `sizeof(time_t)` -/
def sizeofTimeT : Nat :=
  8

def getTimeTMin : Except Rejection Int64 :=
  getSignedMin "Unsupported size of time_t\n" sizeofTimeT

def getTimeTMax : Except Rejection Int64 :=
  getSignedMax "Unsupported size of time_t\n" sizeofTimeT

def timeRejections : Rejections where
  parsing := .usage "Error parsing time."
  invalid := .usage "Invalid characters in input."
  outOfRange := .usage "Unsigned integer out of range for time."

/-- `parse_time_t` -/
def parseTimeT (min max : Int64) (str : Text) : Except Rejection Int64 :=
  parseSigned timeRejections min max str

/-- The seconds between the two bounds, as `handle_arguments` parses them. -/
def parseSeconds (str : Text) : Except Rejection Int64 := do
  let min ← getTimeTMin
  let max ← getTimeTMax
  parseTimeT min max str

/-- Every number of 64 bits is accepted. -/
theorem parseSeconds_eq_ok_iff {str : Text} {seconds : Int64} :
    parseSeconds str = .ok seconds ↔
      str.bytes = [] ∧ seconds = 0 ∨ Denotes str.bytes seconds.toInt :=
  parseSigned_unbounded_iff

end CExamples
