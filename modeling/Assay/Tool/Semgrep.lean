import Assay.Tool.Record

/-!
# Semgrep

The output is a JSON object with a list of results. The severity of a result stands among its extra
fields or in their metadata.
-/

namespace Assay.Semgrep

open ToolRecord

/-- What the words for severities mean. -/
def severities : List (String × Severity) :=
  [("critical", .critical), ("error", .high), ("warning", .medium), ("info", .low),
   ("inventory", .info), ("experiment", .info)]

/-- The object of the output with its results. -/
def container (raw : String) : Except Fault (Value × List Value) := do
  let doc ← readContainer raw "semgrep output is not valid JSON"
  match doc.get "results" with
  | .list results => return (doc, results)
  | _ => refuse "semgrep output has no 'results' array" (shorten raw)

/-- The records of the output. -/
def split (raw : String) : Except Fault (List ToolRecord) := do
  return (← container raw).2.map .value

/-- The version that the output gives, if any. -/
def version? (raw : String) : Except Fault (Option String) :=
  versionIn (container raw) fun (doc, _) =>
    let v := doc.get "version"
    .ok (if v.isTruthy then some v.toText else none)

/-- The severity among the extra fields of a result. -/
def severityOf (extra : Value) : Value :=
  let severity := extra.get "severity"
  if severity.isNull then (extra.get "metadata").get "severity" else severity

/-- Reads a result. -/
def parse (run : ToolRun) (v : Value) : Except Fault ToolFinding := do
  let result ← requireFields v "semgrep result"
  let shown := previewValue v
  let ruleId ← requireText ((result.get "check_id").orElse (result.get "rule_id")) "check_id" shown
  let file ← requireText (result.get "path") "path" shown
  let start := result.get "start"
  if start.isTruthy && !start.isMap then
    refuse ("result " ++ ruleId ++ " has a malformed 'start'") shown
  let extra := result.get "extra"
  return {
    tool := run.tool
    toolVersion := run.version
    ruleId, file
    line := intOf? (start.get "line")
    column := intOf? (start.get "col")
    message := ((extra.get "message").orElse (result.get "message")).textOrEmpty
    nativeSeverity := textOf? (severityOf extra) }

end Assay.Semgrep
