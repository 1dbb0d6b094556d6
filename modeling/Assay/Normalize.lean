import Assay.CorpusPath
import Assay.Crosswalk
import Assay.Tool

/-!
# Normalization

The output of a tool becomes findings in common words. A record that is not a finding costs only
itself: it is counted, and its reason kept. An output that cannot be cut into records counts as one
failure and has no findings.
-/

namespace Assay

/-- The findings of an output, and what was wrong with it. -/
structure Normalized where
  tool : String
  toolVersion : String
  findings : List Finding
  diagnostics : Diagnostics
  deriving Repr, Inhabited

namespace Normalized

/-- A line counted from one, if there is one, given the number of a file's first line. -/
def absoluteLine (line : Option Int) (base : Int) : Option Int :=
  (line.map fun n => n - base + 1).filter (1 ≤ ·)

/-- The finding of a tool's finding, as number `index` of its run. -/
def findingOf (t : Tool) (x : Crosswalk) (root : Option (Except Fault CorpusRoot)) (index : Nat)
    (raw : ToolFinding) : Except Fault Finding := do
  let line := absoluteLine raw.line t.lineBase
  return {
    raw, index, line
    file := ← CorpusPath.ofTool root raw.file
    severity := ← Severity.ofNative t.format.severities raw.nativeSeverity
    categories := Classification.sorted (x.resolve (RuleKey.of t.standard raw.ruleId))
    coarse := line.isNone }

/-- Counts what a finding lacks: a usable line, an entry of its rule in the crosswalk. -/
def count (t : Tool) (x : Crosswalk) (d : Diagnostics) (f : Finding) : Diagnostics :=
  let key := RuleKey.of t.standard f.raw.ruleId
  let d := if f.coarse then d.recordCoarse else d
  if x.covers key then d else d.recordGap key.label

/-- The message of record number `index` that was refused. -/
def failureText (t : Tool) (index : Nat) (f : RecordFault) : String :=
  t.key ++ " record " ++ toString index ++ ": " ++ f.message ++
    (match f.preview with
     | some p => if p = "" then "" else " [" ++ p ++ "]"
     | none => "")

/-- Adds records, the first of which is number `index`, to the findings so far. -/
def addRecords (t : Tool) (x : Crosswalk) (root : Option (Except Fault CorpusRoot))
    (run : ToolRun) (n : Normalized) (index : Nat) : List ToolRecord → Except Fault Normalized
  | [] => .ok n
  | r :: rest =>
    match t.format.parse run r with
    | .ok raw => do
      let f ← findingOf t x root n.findings.length raw
      addRecords t x root run
        { n with findings := n.findings ++ [f], diagnostics := count t x n.diagnostics f }
        (index + 1) rest
    | .error (.record fault) =>
      addRecords t x root run
        { n with diagnostics := n.diagnostics.recordParseFailure (failureText t index fault) }
        (index + 1) rest
    | .error f => .error f

/-- The version of a tool: the one given, else the one in the output, else `unknown`. -/
def versionOf (t : Tool) (given : Option String) (raw : String) : Except Fault String :=
  match given.filter (· != "") with
  | some v => .ok v
  | none => do return ((← t.format.version? raw).filter (· != "")).getD "unknown"

/-- The findings of an output of a tool. -/
def ofOutput (t : Tool) (x : Crosswalk) (root : Option (Except Fault CorpusRoot)) (raw : String)
    (version : Option String) : Except Fault Normalized := do
  let version ← versionOf t version raw
  let none_ : Normalized := ⟨t.key, version, [], .empty⟩
  if Text.isAllBlank raw.toList then return none_
  match t.format.split raw with
  | .ok records => addRecords t x root ⟨t.key, version⟩ none_ 0 records
  | .error (.record f) =>
    return { none_ with diagnostics := Diagnostics.empty.recordParseFailure (t.key ++ ": " ++ f.message) }
  | .error f => throw f

/-- The findings as a document. -/
def toValue (n : Normalized) : Value :=
  .record [
    ("tool", .text n.tool),
    ("tool_version", .text n.toolVersion),
    ("findings", .list (n.findings.map Finding.toValue)),
    ("diagnostics", n.diagnostics.toValue)]

end Normalized

end Assay
