import Assay.Category
import Assay.Severity
import Assay.Sorting

/-!
# Findings

A `ToolFinding` is what a tool said, in the tool's own words. A `Finding` is the same in common
words: a path relative to the corpus, a line counted from one, a severity, and the categories that
the crosswalk gives to the tool's rule, most confident first. It keeps the tool's record.
-/

namespace Assay

/-- A finding in the words of the tool that made it. -/
structure ToolFinding where
  tool : String
  toolVersion : String
  ruleId : String
  file : String
  line : Option Int
  column : Option Int
  message : String
  nativeSeverity : Option String
  deriving Repr, DecidableEq, Inhabited

namespace ToolFinding

/-- The finding as a document. -/
def toValue (f : ToolFinding) : Value :=
  .record [
    ("tool", .text f.tool),
    ("tool_version", .text f.toolVersion),
    ("rule_id", .text f.ruleId),
    ("file", .text f.file),
    ("line", .ofOption .int f.line),
    ("column", .ofOption .int f.column),
    ("message", .text f.message),
    ("native_severity", .ofOption .text f.nativeSeverity)]

/-- Reads a finding leniently: what is missing is empty. -/
def ofValue (v : Value) : Except Fault ToolFinding := do
  let d ← v.requireFields
  let severity := d.get "native_severity"
  return {
    tool := (d.get "tool").textOrEmpty
    toolVersion := (d.get "tool_version").textOrEmpty
    ruleId := (d.get "rule_id").textOrEmpty
    file := (d.get "file").textOrEmpty
    line := ← (d.get "line").lenientInt
    column := ← (d.get "column").lenientInt
    message := (d.get "message").textOrEmpty
    nativeSeverity := if severity.isNull then none else some severity.toText }

end ToolFinding

/-- A category with the confidence that a finding belongs to it. -/
structure Classification where
  category : Category
  confidence : Float
  deriving Repr, Inhabited

namespace Classification

/-- The classification of a rule that the crosswalk does not cover. -/
def uncovered : Classification := ⟨.unknown, 0⟩

/-- The classification as a document. -/
def toValue (c : Classification) : Value :=
  .record [("category", .text c.category.label), ("confidence", .float c.confidence)]

/-- Reads a classification leniently: any other category is `unknown`. -/
def ofValue (v : Value) : Except Fault Classification := do
  let d ← v.requireFields
  let confidence := d.get "confidence"
  return {
    category := (Category.ofValue? true (d.get "category")).getD .unknown
    confidence := ← if confidence.isTruthy then confidence.toFloat else .ok 0 }

/-- Whether one classification must stand before another: the more confident one, or of two equally
confident ones the one whose category ranks first. A confidence that is no number asks for nothing,
so this is an order only of classifications whose confidences are numbers. -/
def before (a b : Classification) : Bool :=
  -a.confidence < -b.confidence ||
    (a.confidence == b.confidence && a.category.rank < b.category.rank)

/-- Classifications with the most confident first; those that tie keep their order. -/
def sorted (cs : List Classification) : List Classification := Sorting.sort before cs

end Classification

/-- A finding in common words. -/
structure Finding where
  raw : ToolFinding
  /-- The position among the findings of its run, from zero. -/
  index : Int
  file : String
  line : Option Int
  severity : Severity
  categories : List Classification
  /-- Whether the tool gave no usable line. -/
  coarse : Bool
  deriving Repr, Inhabited

namespace Finding

/-- The name of a finding within its run. -/
def id (f : Finding) : String := f.raw.tool ++ "#" ++ toString f.index

/-- The category that a finding counts for when nothing matches it. -/
def primary (f : Finding) : Category :=
  match f.categories with
  | [] => .unknown
  | c :: _ => c.category

/-- A finding without any category but `unknown`. -/
def isUnclassified (f : Finding) : Bool := f.categories.all (·.category == .unknown)

/-- The greatest confidence with which a finding belongs to a category, zero if there is none. -/
def confidenceFor (f : Finding) (c : Category) : Float :=
  f.categories.foldl
    (fun best r => if r.category == c && r.confidence > best then r.confidence else best) 0

/-- The finding as a document. -/
def toValue (f : Finding) : Value :=
  .record [
    ("finding_id", .text f.id),
    ("index", .int f.index),
    ("file", .text f.file),
    ("line", .ofOption .int f.line),
    ("severity", .text f.severity.label),
    ("categories", .list (f.categories.map Classification.toValue)),
    ("coarse_location", .bool f.coarse),
    ("raw", f.raw.toValue)]

/-- Reads a finding leniently. Categories are put in order, and there is always one. -/
def ofValue (v : Value) : Except Fault Finding := do
  let d ← v.requireFields
  let listed ← (d.get "categories").itemsOrNone
  let categories := Classification.sorted
    (← (listed.filter Value.isMap).mapM Classification.ofValue)
  return {
    raw := ← ToolFinding.ofValue (← (d.get "raw").fieldsOrEmpty)
    index := ← (d.get "index").intOrZero
    file := (d.get "file").textOrEmpty
    line := ← (d.get "line").lenientInt
    severity := ← Severity.ofValueOrMedium (d.get "severity")
    categories := if categories.isEmpty then [.uncovered] else categories
    coarse := (d.get "coarse_location").isTruthy }

end Finding

end Assay
