import Assay.Category
import Assay.Severity

/-!
# Known defects

Ground truth is a list of defects that are known to be in the corpus. Each has a category, a place,
a severity, and the rules of coding standards that speak of it.
-/

namespace Assay

/-- A file of the corpus and a closed range of lines in it, counted from one. -/
structure Location where
  file : String
  lineStart : Int
  lineEnd : Int
  column : Option Int
  deriving Repr, DecidableEq, Inhabited

namespace Location

/-- The middle of the line range. -/
def midpoint (l : Location) : Except Fault Float :=
  match Binary64.ofInt? (l.lineStart + l.lineEnd) with
  | some x => .ok (x / 2)
  | none => .error .tooLarge

/-- The location as a document. -/
def toValue (l : Location) : Value :=
  .record [
    ("file", .text l.file),
    ("line_start", .int l.lineStart),
    ("line_end", .int l.lineEnd),
    ("column", .ofOption .int l.column)]

/-- Reads a location leniently: a range without an end is one line. -/
def ofValue (v : Value) : Except Fault Location := do
  let d ← v.requireFields
  let column := d.get "column"
  return {
    file := (d.get "file").textOrEmpty
    lineStart := ← (d.get "line_start").intOrZero
    lineEnd := ← ((d.get "line_end").orElse (d.get "line_start")).intOrZero
    column := ← if column.isNull then .ok none else column.toInt.map some }

end Location

/-- A rule of a coding standard. -/
structure RuleRef where
  standard : String
  ruleId : String
  deriving Repr, DecidableEq, Inhabited

namespace RuleRef

/-- The rule as a document. -/
def toValue (r : RuleRef) : Value :=
  .record [("standard", .text r.standard), ("rule_id", .text r.ruleId)]

/-- Reads a rule leniently. -/
def ofValue (v : Value) : Except Fault RuleRef := do
  let d ← v.requireFields
  return {
    standard := (d.get "standard").textOrEmpty
    ruleId := ((d.get "rule_id").orElse (d.get "ruleId")).textOrEmpty }

/-- Order by standard, then by rule. -/
def le (a b : RuleRef) : Bool :=
  Text.before a.standard b.standard ||
    (a.standard == b.standard && !Text.before b.ruleId a.ruleId)

end RuleRef

/-- A known defect of a sample. -/
structure Defect where
  id : String
  sampleId : String
  category : Category
  location : Location
  severity : Severity
  rules : List RuleRef
  note : String
  /-- Whether the defect shows on some control flow paths only. -/
  conditional : Bool
  /-- Whether the defect may share category and place with another one. -/
  intentionalDuplicate : Bool
  deriving Repr, DecidableEq, Inhabited

namespace Defect

/-- The file of a defect. -/
def file (d : Defect) : String := d.location.file

/-- Order by file, first line and name. -/
def before (a b : Defect) : Bool :=
  Text.before a.file b.file || (a.file == b.file &&
    (a.location.lineStart < b.location.lineStart ||
      (a.location.lineStart == b.location.lineStart && Text.before a.id b.id)))

/-- The defect as a document. -/
def toValue (d : Defect) : Value :=
  .record [
    ("id", .text d.id),
    ("sample_id", .text d.sampleId),
    ("category", .text d.category.label),
    ("location", d.location.toValue),
    ("severity", .text d.severity.label),
    ("standard_rules", .list (d.rules.map RuleRef.toValue)),
    ("note", .text d.note),
    ("conditional", .bool d.conditional),
    ("intentional_duplicate", .bool d.intentionalDuplicate)]

/-- Reads a defect leniently: any other category is `other`. -/
def ofValue (v : Value) : Except Fault Defect := do
  let d ← v.requireFields
  let location ← Location.ofValue (← (d.get "location").fieldsOrEmpty)
  let severity ← Severity.ofValueOrMedium (d.get "severity")
  let listed ← (d.get "standard_rules").itemsOrNone
  return {
    location, severity
    id := (d.get "id").textOrEmpty
    sampleId := (d.get "sample_id").textOrEmpty
    category := (Category.ofValue? false (d.get "category")).getD .other
    rules := ← (listed.filter Value.isMap).mapM RuleRef.ofValue
    note := (d.get "note").textOrEmpty
    conditional := (d.get "conditional").isTruthy
    intentionalDuplicate := (d.get "intentional_duplicate").isTruthy }

end Defect

end Assay
