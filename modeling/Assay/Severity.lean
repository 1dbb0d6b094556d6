import Assay.Text.Blank
import Assay.Text.Case
import Assay.Text.Digit
import Assay.Value.Convert

/-!
# Severities

Five degrees, from `info` to `critical`, written by name, by another name or by rank.
-/

namespace Assay

/-- How grave a finding is. -/
inductive Severity where
  | info
  | low
  | medium
  | high
  | critical
  deriving Repr, DecidableEq, Inhabited

namespace Severity

/-- Every severity, least first. -/
def all : List Severity := [.info, .low, .medium, .high, .critical]

/-- The rank of a severity, from one. -/
def rank : Severity → Nat
  | .info => 1
  | .low => 2
  | .medium => 3
  | .high => 4
  | .critical => 5

/-- The written name of a severity. -/
def label : Severity → String
  | .info => "info"
  | .low => "low"
  | .medium => "medium"
  | .high => "high"
  | .critical => "critical"

/-- The severity of a rank. -/
def ofRank? (n : Int) : Option Severity := all.find? fun s => (s.rank : Int) == n

/-- Other names of some severities. -/
def aliases : List (String × Severity) :=
  [("informational", .info), ("information", .info), ("note", .info), ("minor", .low),
   ("moderate", .medium), ("major", .high), ("blocker", .critical)]

/-- The severity of a name in lower case. -/
def find? (name : String) : Option Severity :=
  match all.find? (·.label == name) with
  | some s => some s
  | none => aliases.lookup name

/-- The severity that a text names. Text made of digits is a rank; a digit that no number can be
made of is a fault. -/
def ofText? (text : String) : Except NumeralError (Option Severity) :=
  let s := Text.toLower (Text.strip text)
  if Text.isAllDigits s.toList then return ofRank? (← Numeral.readInt s)
  else return find? s

/-- The severity that a value names. -/
def ofValue? : Value → Except NumeralError (Option Severity)
  | .null => .ok none
  | .bool _ => .ok none
  | .int n => .ok (ofRank? n)
  | v => do ofText? (← v.toText?)

/-- The severity that a value names, `medium` if it names none. -/
def ofValueOrMedium (v : Value) : Except Fault Severity :=
  ((ofValue? v).mapError .numeral).map (·.getD .medium)

/-- The severity of a tool's own word: the table of its format comes first, then the common names,
and `medium` stands for every other word. -/
def ofNative (table : List (String × Severity)) : Option String → Except Fault Severity
  | none => .ok .medium
  | some native =>
    let word := Text.toLower (Text.strip native)
    match table.lookup word with
    | some s => .ok s
    | none => ((ofText? word).mapError .numeral).map (·.getD .medium)

end Severity

end Assay
