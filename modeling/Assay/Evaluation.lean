import Assay.Corpus.Load
import Assay.Invocation
import Assay.Matching
import Assay.Metrics
import Assay.Normalize
import Assay.Report

/-!
# Evaluating a tool

One tool is evaluated against one corpus: its output is read or produced, its findings are
normalized and matched with the known defects, and everything is put into a report. A tool that
fails does not end the evaluation: what it reported before failing is scored, and the report says
that it is incomplete.
-/

namespace Assay

/-- What is evaluated, and how. -/
structure EvaluationRequest where
  tool : Tool
  /-- A file with the output of the tool; without one the tool is run. -/
  output : Option Path
  /-- The command template to run instead of the tool's own. -/
  command : Option String
  /-- The version to report instead of the one that is found. -/
  version : Option String
  limit : TimeLimit
  matching : MatchSettings
  timestamp : String

/-- The report of an evaluation, and the failure of the tool if it failed. -/
structure Evaluation where
  report : Report
  failure : Option Invocation.Fault

namespace Evaluation

/-- The first text that is given and not empty. -/
def firstGiven (texts : List (Option String)) : Option String :=
  texts.findSome? fun t => t.filter (· != "")

/-- The output of a tool, its version if it is known, and its failure if it failed. -/
structure Raw where
  text : String
  version : Option String
  failure : Option Invocation.Fault

/-- The output in a file. -/
def readOutput (d : Disk) (p : Path) : Except Fault String := do
  if !(← d.isFile p) then throw (.settings (.toolOutputNotFound p.toText))
  d.readLossy p

/-- The output of a tool that is run over a corpus. -/
def produce (q : EvaluationRequest) (corpus : Path) : OnDisk Raw := do
  match firstGiven [q.command, q.tool.command] with
  | none => throw (.settings (.noCommand q.tool.key))
  | some template =>
    let version ← match firstGiven [q.version] with
      | some v => pure (some v)
      | none => Invocation.probe q.tool
    match ← OnDisk.attempt (Invocation.report q.tool corpus template q.limit) with
    | .ok r => return ⟨r.report, version, none⟩
    | .error (.invocation f) => return ⟨f.stdout, version, some f⟩
    | .error f => throw f

/-- The output of a tool. -/
def outputOf (q : EvaluationRequest) (corpus : Path) : OnDisk Raw :=
  match q.output with
  | some p => do return ⟨← OnDisk.look fun d => readOutput d p, q.version, none⟩
  | none => produce q corpus

/-- Counts the failure of a tool. -/
def countFailure (d : Diagnostics) : Option Invocation.Fault → Diagnostics
  | none => d
  | some f =>
    if f.timedOut then { d with timeouts := d.timeouts + 1 } else { d with crashes := d.crashes + 1 }

/-- Counts the findings in files that are not in the corpus; they can match nothing. -/
def countUnknown (isFile : String → Except Fault Bool) (known : List String) (d : Diagnostics) :
    List Finding → Except Fault Diagnostics
  | [] => .ok d
  | f :: rest => do
    if f.file = "" || known.contains f.file then countUnknown isFile known d rest
    else if ← isFile f.file then countUnknown isFile known d rest
    else countUnknown isFile known (d.recordUnknownFile f.file) rest

/-- The report on normalized findings. -/
def score (isFile : String → Except Fault Bool) (c : Corpus) (x : Crosswalk) (s : MatchSettings)
    (timestamp : String) (n : Normalized) : Except Fault Report := do
  let results ← Matching.run s n.findings c.defects
  let extras := (results.filter (·.kind == MatchKind.unclassified.label)).length
  let diagnostics ← countUnknown isFile c.files
    { n.diagnostics with unclassifiedExtras := extras } n.findings
  return {
    schemaVersion := Report.currentSchema
    runId := none
    corpusVersion := c.version
    tool := n.tool
    toolVersion := n.toolVersion
    crosswalkVersion := x.version
    timestamp
    incomplete := false
    matching := s.toValue
    metrics := (← Metrics.ofResults results).toValue
    diagnostics
    results }

/-- Evaluates a tool against a corpus. -/
def run (c : Corpus) (x : Crosswalk) (q : EvaluationRequest) : OnDisk Evaluation := do
  let raw ← outputOf q c.path
  OnDisk.look fun d => do
    let n ← Normalized.ofOutput q.tool x (some (.ok c.top)) raw.text raw.version
    let n := { n with diagnostics := countFailure n.diagnostics raw.failure }
    let isFile (file : String) := d.isFile (c.path.append (Path.ofText file))
    let r ← score isFile c x q.matching q.timestamp n
    return { report := { r with incomplete := raw.failure.isSome }, failure := raw.failure }

end Evaluation

end Assay
