import CExamples.Word.CString

/-!
# The options of a command line

`getopt` and `getopt_long` with `opterr` 0.  An argument that begins with a dash holds
the letters of options, and the value of an option stands behind its letter or in the
next argument.  With a table of long options an argument that begins with two dashes
names one of them, by its name or by a prefix of it, and its value stands behind `=` or
in the next argument.  Two dashes alone end the options.

An operand ends the options as well, as POSIX asks, or it is passed over and comes
behind the options in the end, as GNU does.
-/

namespace CExamples.CommandLine

open CExamples.Word

/-- What an operand does. -/
inductive Order
  /-- it is passed over -/
  | permute
  /-- it ends the options -/
  | posix
  deriving DecidableEq, Repr

/-- `-` -/
def dash : UInt8 :=
  45

/-- `:` -/
def colon : UInt8 :=
  58

/-- `=` -/
def equals : UInt8 :=
  61

/-- An entry of the table for `getopt_long`. -/
structure LongOption where
  name : List UInt8
  takesValue : Bool
  val : UInt8
  deriving DecidableEq, Repr

/-- The options of a program; `getopt` has no table. -/
structure Options where
  optstring : List UInt8
  long : Option (List LongOption)

/-- What a call returns when it does not return -1. -/
inductive Answer
  /-- the letter of an option, with `optarg` if it takes a value -/
  | option (letter : UInt8) (optarg : Option Text)
  /-- `?` -/
  | question (optopt : UInt8)
  deriving DecidableEq

/-- An argument that is neither the letters nor the name of an option. -/
def IsOperand (arg : Text) : Prop :=
  arg.bytes.head? ≠ some dash ∨ arg.bytes = [dash]

instance (arg : Text) : Decidable (IsOperand arg) :=
  inferInstanceAs (Decidable (_ ∨ _))

/-- Whether a letter is an option, and if so whether it takes a value. -/
def declared : (optstring : List UInt8) → (letter : UInt8) → Option Bool
  | [], _ => none
  | first :: rest, letter =>
      if first = letter ∧ letter ≠ colon then some (decide (rest.head? = some colon))
      else declared rest letter

/-- The long option with a name, or else the only one, up to its meaning, whose name
begins so. -/
def lookup (table : List LongOption) (name : List UInt8) : Option LongOption :=
  match table.find? (·.name = name) with
  | some exact => some exact
  | none =>
      match table.filter (name <+: ·.name) with
      | [] => none
      | first :: others =>
          if ∀ other ∈ others, other.takesValue = first.takesValue ∧ other.val = first.val then
            some first
          else none

/-! ## The scanner -/

/-- The arguments that were dealt with, the operands that were passed over, and the
arguments that are left.  While `letters` are left, they end the first of these. -/
structure Scan where
  taken : List Text
  skipped : List Text
  letters : Text
  rest : List Text

namespace Scan

/-- `argv`, in its present order. -/
def argv (scan : Scan) : List Text :=
  scan.taken ++ (scan.skipped ++ scan.rest)

/-- `optind`, when the options have ended. -/
def optind (scan : Scan) : Nat :=
  scan.taken.length

/-- The first argument is dealt with. -/
def next (scan : Scan) : Scan :=
  { scan with
    taken := scan.taken ++ scan.rest.take 1
    letters := Text.empty
    rest := scan.rest.tail }

/-- The letters `more` are left of the first argument. -/
def behind (scan : Scan) (more : Text) : Scan :=
  if more.bytes = [] then scan.next else { scan with letters := more }

/-- The operands in front are passed over. -/
def pass (scan : Scan) : Order → Scan
  | .permute =>
      { scan with
        skipped := scan.skipped ++ scan.rest.takeWhile (IsOperand ·)
        rest := scan.rest.dropWhile (IsOperand ·) }
  | .posix => scan

end Scan

/-- The value of an option is the next argument. -/
def fromNext (letter : UInt8) (scan : Scan) : Answer × Scan :=
  match scan.next.rest with
  | [] => (.question letter, scan.next)
  | value :: _ => (.option letter (some value), scan.next.next)

/-- A letter with the letters behind it. -/
def takeLetter (optstring : List UInt8) (letter : UInt8) (more : Text) (scan : Scan) :
    Answer × Scan :=
  match declared optstring letter with
  | none => (.question letter, scan.behind more)
  | some false => (.option letter none, scan.behind more)
  | some true =>
      if more.bytes = [] then fromNext letter scan
      else (.option letter (some more), scan.next)

/-- The name of a long option, up to `=`. -/
def longName (arg : Text) : List UInt8 :=
  (arg.bytes.drop 2).takeWhile (· ≠ equals)

/-- The value behind `=`. -/
def longValue (arg : Text) : Option Text :=
  if equals ∈ arg.bytes.drop 2 then some (arg.drop (2 + (longName arg).length + 1)) else none

/-- The name of a long option. -/
def takeLong (table : List LongOption) (arg : Text) (scan : Scan) : Answer × Scan :=
  match lookup table (longName arg) with
  | none => (.question 0, scan.next)
  | some option =>
      match option.takesValue, longValue arg with
      | true, some value => (.option option.val (some value), scan.next)
      | true, none => fromNext option.val scan
      | false, some _ => (.question option.val, scan.next)
      | false, none => (.option option.val none, scan.next)

/-- An argument with an option. -/
def takeArgument (options : Options) (arg : Text) (scan : Scan) : Answer × Scan :=
  match options.long with
  | none => takeLetter options.optstring (Text.first (arg.bytes.drop 1)) (arg.drop 2) scan
  | some table =>
      if Text.first (arg.bytes.drop 1) = dash then takeLong table arg scan
      else takeLetter options.optstring (Text.first (arg.bytes.drop 1)) (arg.drop 2) scan

/-- A call: its answer, or that it returns -1. -/
def getopt (order : Order) (options : Options) (scan : Scan) : Option Answer × Scan :=
  match scan.letters.bytes with
  | letter :: _ =>
      let taken := takeLetter options.optstring letter (scan.letters.drop 1) scan
      (some taken.1, taken.2)
  | [] =>
      let scan := scan.pass order
      match scan.rest with
      | [] => (none, scan)
      | arg :: _ =>
          if IsOperand arg then (none, scan)
          else if arg.bytes = [dash, dash] then (none, scan.next)
          else
            let taken := takeArgument options arg scan
            (some taken.1, taken.2)

end CExamples.CommandLine
