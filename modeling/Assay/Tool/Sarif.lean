import Assay.Tool.Record

/-!
# SARIF

The runs of a SARIF document hold results. Of a result the rule, the first physical location, the
message and the level matter. A result without a level is a warning.
-/

namespace Assay.Sarif

open ToolRecord

/-- What the levels mean. -/
def severities : List (String × Severity) :=
  [("error", .high), ("warning", .medium), ("note", .low), ("none", .info)]

/-- The level of a result without one. -/
def defaultLevel : String := "warning"

/-- The runs of a document. -/
def runsOf (raw : String) : Except Fault (List Value) := do
  let doc ← readContainer raw "SARIF output is not valid JSON"
  match doc.get "runs" with
  | .list runs => return runs
  | _ => refuse "SARIF output has no 'runs' array" (shorten raw)

/-- The records of a run: its results; a run without fields is one record. -/
def recordsOf (run : Value) : List Value := if run.isMap then itemsOf (run.get "results") else [run]

/-- The records of a document. -/
def split (raw : String) : Except Fault (List ToolRecord) := do
  return ((← runsOf raw).flatMap recordsOf).map .value

/-- The version of the tool of a run, if it gives one. -/
def runVersion? (run : Value) : Except Fault (Option String) := do
  if !run.isMap then return none
  let driver := (← (run.get "tool").fieldsOrEmpty).get "driver"
  let version := (driver.get "semanticVersion").orElse (driver.get "version")
  return if version.isTruthy then some version.toText else none

/-- The first version that a run gives. -/
def firstVersion? : List Value → Except Fault (Option String)
  | [] => .ok none
  | run :: rest => do
    match ← runVersion? run with
    | some v => return some v
    | none => firstVersion? rest

/-- The version of the tool, if the document gives one. -/
def version? (raw : String) : Except Fault (Option String) := versionIn (runsOf raw) firstVersion?

/-- The first physical location of a result. -/
def locationOf? (result : Value) : Option Value :=
  ((itemsOf (result.get "locations")).map (·.get "physicalLocation")).find? Value.isMap

/-- The rule of a result: named by itself, or by a rule object. -/
def ruleOf (result : Value) : Value :=
  let rule := result.get "ruleId"
  if !rule.isTruthy && (result.get "rule").isMap then (result.get "rule").get "id" else rule

/-- Reads a result. -/
def parse (run : ToolRun) (v : Value) : Except Fault ToolFinding := do
  let result ← requireFields v "SARIF result"
  let shown := previewValue v
  let ruleId ← requireText (ruleOf result) "ruleId" shown
  match locationOf? result with
  | none => refuse ("result " ++ ruleId ++ " has no physical location") shown
  | some place =>
    let file ← requireText ((place.get "artifactLocation").get "uri") "artifactLocation.uri" shown
    let region := place.get "region"
    let message := result.get "message"
    return {
      tool := run.tool
      toolVersion := run.version
      ruleId, file
      line := intOf? (region.get "startLine")
      column := intOf? (region.get "startColumn")
      message := (if message.isMap then message.get "text" else message).textOrEmpty
      nativeSeverity := some ((result.get "level").orElse (.text defaultLevel)).toText }

end Assay.Sarif
