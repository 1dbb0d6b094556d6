import Assay.Text.Line
import Assay.Tool.Record

/-!
# JSON lines

One finding a line, each line a JSON object. A line that is none costs only itself.
-/

namespace Assay.JsonLines

open ToolRecord

/-- The lines of the output that are not blank. -/
def split (raw : String) : List ToolRecord :=
  ((Text.lines raw.toList).filter fun l => !Text.isAllBlank l).map fun l =>
    .value (.text (String.ofList l))

/-- The object of a record: a line is read as JSON, any other value stands for itself. -/
def objectOf : Value → Except Fault Value
  | .text s => readContainer s "invalid JSON line"
  | v => .ok v

/-- Reads a record. -/
def parse (run : ToolRun) (v : Value) : Except Fault ToolFinding := do
  let d ← requireFields (← objectOf v) "JSON line"
  let shown := previewValue v
  return {
    tool := run.tool
    toolVersion := run.version
    ruleId := ← requireText (d.first ["ruleId", "rule_id", "rule"]) "ruleId" shown
    file := ← requireText (d.first ["file", "path"]) "file" shown
    line := intOf? (d.first ["line", "startLine"])
    column := intOf? (d.first ["column", "col"])
    message := (d.first ["message", "msg"]).textOrEmpty
    nativeSeverity := textOf? (d.first ["severity", "level"]) }

end Assay.JsonLines
