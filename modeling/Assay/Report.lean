import Assay.Diagnostics
import Assay.MatchResult

/-!
# Run reports

A report holds everything that is known of one run: what was compared with what, every match result,
the metrics, the diagnostics and the settings of the matching. Four versions and names form its key.
-/

namespace Assay

/-- The report of one run. -/
structure Report where
  schemaVersion : String
  runId : Option String
  corpusVersion : String
  tool : String
  toolVersion : String
  crosswalkVersion : String
  timestamp : String
  /-- Whether the tool failed, so that findings may be missing. -/
  incomplete : Bool
  matching : Value
  metrics : Value
  diagnostics : Diagnostics
  results : List MatchResult

namespace Report

/-- The version of the form of reports. -/
def currentSchema : String := "run_report_v1"

/-- The names of the key fields, in order. -/
def keyFields : List String := ["corpus_version", "tool", "tool_version", "crosswalk_version"]

/-- What a report is about: its key fields with their values. -/
def key (r : Report) : List (String × String) :=
  [("corpus_version", r.corpusVersion), ("tool", r.tool), ("tool_version", r.toolVersion),
   ("crosswalk_version", r.crosswalkVersion)]

/-- The key as a document. -/
def keyValue (r : Report) : Value := .record (r.key.map fun (k, v) => (k, .text v))

/-- The report with the id under which it is stored. -/
def withRunId (r : Report) (id : String) : Report := { r with runId := some id }

/-- The report as a document. -/
def toValue (r : Report) : Value :=
  .record [
    ("schema_version", .text r.schemaVersion),
    ("run_id", .ofOption .text r.runId),
    ("corpus_version", .text r.corpusVersion),
    ("tool", .text r.tool),
    ("tool_version", .text r.toolVersion),
    ("crosswalk_version", .text r.crosswalkVersion),
    ("timestamp", .text r.timestamp),
    ("incomplete", .bool r.incomplete),
    ("matching", r.matching),
    ("metrics", r.metrics),
    ("diagnostics", r.diagnostics.toValue),
    ("results", .list (r.results.map MatchResult.toValue))]

/-- Reads a report: fields are lenient, results are not. -/
def ofValue (v : Value) : Except Fault Report := do
  if !v.isMap then throw (.rejected .notReport)
  let schema := v.get "schema_version"
  let runId := v.get "run_id"
  let matching ← (v.get "matching").toMapping
  let metrics ← (v.get "metrics").toMapping
  let diagnostics ← Diagnostics.ofValue (← (v.get "diagnostics").fieldsOrEmpty)
  let listed ← (v.get "results").itemsOrNone
  return {
    schemaVersion := if schema.isTruthy then schema.toText else currentSchema
    runId := if runId.isTruthy then some runId.toText else none
    corpusVersion := (v.get "corpus_version").textOrEmpty
    tool := (v.get "tool").textOrEmpty
    toolVersion := (v.get "tool_version").textOrEmpty
    crosswalkVersion := (v.get "crosswalk_version").textOrEmpty
    timestamp := (v.get "timestamp").textOrEmpty
    incomplete := (v.get "incomplete").isTruthy
    matching
    metrics
    diagnostics
    results := ← (listed.filter Value.isMap).mapM MatchResult.ofValue }

end Report

end Assay
