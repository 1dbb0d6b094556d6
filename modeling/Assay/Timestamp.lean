import Assay.Calendar
import Assay.Environment

/-!
# Timestamps

The moment that a report carries: a text that was given, else the seconds since 1970 that the
environment holds, so that a run can be repeated exactly, else now.
-/

namespace Assay.Timestamp

/-- The variable that holds the seconds since 1970. -/
def epochVariable : String := "SOURCE_DATE_EPOCH"

/-- The moment that a number of seconds, written as text, stands for. -/
def ofEpoch? (text : String) : Option Moment :=
  match Numeral.readInt text with
  | .ok n => Moment.ofSeconds? n
  | .error _ => none

/-- The timestamp of a report. -/
def choose (given : Option String) (env : Environment) (now : Moment) : Except Fault String :=
  match given.filter (· != "") with
  | some text => .ok text
  | none =>
    let epoch := Text.strip ((env.get? epochVariable).getD "")
    if epoch = "" then .ok now.reportText
    else match ofEpoch? epoch with
      | some m => .ok m.reportText
      | none => .error (.settings (.epoch epoch))

end Assay.Timestamp
