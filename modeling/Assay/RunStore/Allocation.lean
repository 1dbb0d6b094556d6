import Assay.Calendar
import Assay.Files.Disk
import Assay.Text.Digit

/-!
# Run ids

A run id is a day, a number of two digits and a time of day: `YYYYMMDD`, `NN` and `HHMMSS`. The runs
of a day are numbered from one. An id is taken by making the directory of that name, which works for
nobody who comes later; whoever comes later tries the next number. There are no more than 99 numbers
a day.
-/

namespace Assay.RunStore

/-- The length of a run id. -/
def idLength : Nat := 16

/-- The highest number of a run within its day. -/
def maxNumber : Nat := 99

/-- Whether a text is sixteen digits. -/
def isDigits (cs : List Char) : Bool := cs.length == idLength && cs.all Text.isDecimal

/-- Whether the name of a directory is that of a run: sixteen digits, perhaps with a line feed after
them. -/
def isRunName (name : String) : Bool :=
  let cs := name.toList
  isDigits cs || (cs.getLast? == some '\n' && isDigits cs.dropLast)

/-- The id of a day, a number and a time of day. -/
def idOf (now : Moment) (n : Nat) : String :=
  now.date.stamp ++ Date.padded 2 n ++ now.clockStamp

/-- The number in the name of a run. -/
def numberOf (name : String) : Nat :=
  Numeral.ofDigits (((name.toList.drop 8).take 2).filterMap Text.digitValue?)

/-- Whether an entry is a run of a day. -/
def isRunOf (day : String) (entry : String × Node) : Bool :=
  entry.2.isDir && day.toList.isPrefixOf entry.1.toList && isRunName entry.1

/-- The numbers that the runs of a day have. -/
def numbers (day : String) (runs : Directory) : List Nat :=
  (runs.filter (isRunOf day)).map fun (name, _) => numberOf name

/-- The number to try first. -/
def nextNumber (day : String) (runs : Directory) : Nat := (numbers day runs).foldl max 0 + 1

/-- Whether a name can be taken. -/
def isFree (runs : Directory) (name : String) : Bool := (runs.get? name).isNone

/-- The first free id among `fuel` numbers from `n` on. -/
def freeFrom (now : Moment) (runs : Directory) : Nat → Nat → Option String
  | 0, _ => none
  | fuel + 1, n =>
    if isFree runs (idOf now n) then some (idOf now n) else freeFrom now runs fuel (n + 1)

/-- The id that a run stored now gets, if there is one left. -/
def freeId (now : Moment) (runs : Directory) : Option String :=
  let first := nextNumber now.date.stamp runs
  freeFrom now runs (maxNumber + 1 - first) first

end Assay.RunStore
