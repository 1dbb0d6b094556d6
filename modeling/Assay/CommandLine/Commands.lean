import Assay.CommandLine.Arguments
import Assay.CommandLine.Console
import Assay.Comparison
import Assay.Corpus.Coverage
import Assay.Crosswalk.File
import Assay.Evaluation
import Assay.RunStore
import Assay.Settings
import Assay.Timestamp

/-!
# What the commands do

A run evaluates tools one after the other, stores and writes each report as soon as it is there, and
says at the end which tools failed. A comparison reads two stored runs. A validation loads a corpus
and counts what is in it.
-/

namespace Assay.CommandLine

/-- Where and when a command runs. -/
structure Setting where
  env : Environment
  now : Moment

/-- A path, if one is given that is not empty. -/
def pathOf? (text : Option String) : Option Path := (text.filter (· != "")).map Path.ofText

/-- A text as a value; null if it is not given. -/
def givenText (text : Option String) : Value := .ofOption .text text

/-- The settings of a command and the environment with what the file of variables adds. -/
def settle (setting : Setting) (config : Option String) (o : Overrides) :
    Console (Settings × Environment) :=
  Console.look fun d => do
    let env ← setting.env.addFile d (Path.ofText Environment.fileName)
    return (← Settings.load d (pathOf? config) env { o with knownTools := Tool.keys }, env)

/-! ## Running tools -/

/-- The tools of a run; options that speak of one tool admit only one. -/
def toolsOf (a : RunArguments) : Except Fault (List Tool) := do
  let names := namesOf a.tool
  if names.isEmpty then throw (.settings .noTools)
  let tools ← names.mapM fun n => Tool.ofValue (.text n)
  let single := [("--tool-output", a.toolOutput), ("--command", a.command),
    ("--tool-version", a.toolVersion)]
  match single.find? fun (_, v) => (v.filter (· != "")).isSome with
  | some (flag, _) =>
    if 1 < tools.length then throw (.settings (.oneToolOnly flag tools.length)) else return tools
  | none => return tools

/-- What is evaluated for one tool of a run. -/
def requestFor (a : RunArguments) (s : Settings) (m : MatchSettings) (timestamp : String)
    (t : Tool) : EvaluationRequest :=
  { tool := t
    output := pathOf? a.toolOutput
    command := Evaluation.firstGiven [a.command, s.toolCommand t.key]
    version := Evaluation.firstGiven [a.toolVersion, (s.tool t.key).version]
    limit := .ofValue (.int (s.toolTimeout t.key))
    matching := m
    timestamp }

/-- The line on what could distort the metrics, if there is anything. -/
def diagnosticsLine (d : Diagnostics) : List String :=
  if d.parseFailures = 0 ∧ d.coverageGaps = 0 ∧ d.coarseLocations = 0 ∧ d.unknownFiles = 0 then []
  else ["  diagnostics: parse_failures=" ++ toString d.parseFailures ++
    " coverage_gaps=" ++ toString d.coverageGaps ++
    " coarse_locations=" ++ toString d.coarseLocations ++
    " unknown_files=" ++ toString d.unknownFiles]

/-- The lines on one report. -/
def reportLines (tool : Tool) (p : Path) (r : Report) : Except Fault (List String) := do
  let line ← overallLine tool.key r.metrics
  let line := line ++ (match r.runId with | some id => " run_id=" ++ id | none => "")
  let line := if r.incomplete then line ++ " INCOMPLETE" else line
  return [line, "  report: " ++ p.toText] ++ diagnosticsLine r.diagnostics

/-- Evaluates one tool of a run, stores and writes its report. -/
def runOne (setting : Setting) (c : Corpus) (x : Crosswalk) (store : Option RunStore) (p : Path)
    (q : EvaluationRequest) : Console Evaluation := do
  let e ← Console.ofDisk (Evaluation.run c x q)
  let report ← match store with
    | some s => do pure (e.report.withRunId (← Console.ofDisk (s.store setting.now e.report)))
    | none => pure e.report
  Console.ofDisk (Document.write p report.toValue)
  Console.sayAll (← Console.look fun _ => reportLines q.tool p report)
  return e

/-- The file for the report of a tool: the one given, or one in the directory given. -/
def reportPath (out : Path) (tools : List Tool) (t : Tool) : Path :=
  if 1 < tools.length then out.child (t.key ++ ".json") else out

/-- Runs tools against a corpus. -/
def run (setting : Setting) (a : RunArguments) : Console ExitStatus := do
  let tools ← Console.look fun _ => toolsOf a
  let (s, env) ← settle setting a.config { Overrides.none with
    tolerance := a.tolerance, coarseDiscount := a.coarseDiscount, timeout := a.timeout
    store := givenText a.store }
  let c ← Console.look fun d => Corpus.load d (Path.ofText a.corpus)
  let x ← Console.look fun d => Crosswalk.choose d c.path (pathOf? a.crosswalk)
  let store := if a.noStore then none else some (RunStore.mk s.store)
  let m ← Console.look fun _ =>
    MatchSettings.ofValues (.int s.tolerance) (.float s.coarseDiscount)
  let timestamp ← Console.look fun _ => Timestamp.choose a.timestamp env setting.now
  let outcomes ← tools.mapM fun t =>
    runOne setting c x store (reportPath (Path.ofText a.out) tools t) (requestFor a s m timestamp t)
  let failed := (outcomes.filter (·.failure.isSome)).map (·.report.tool)
  if failed.isEmpty then return .ok
  Console.say ("Tool invocation failed (timeout/crash): " ++ ", ".intercalate failed)
  return .toolFailed

/-! ## Comparing runs -/

/-- The line on one category of a comparison. -/
def deltaLine (d : Delta) : String :=
  let cell (side : List (String × Value)) (name : String) : String :=
    padLeft 7 (metricText (Delta.field side name))
  let line := "  " ++ padRight 26 d.category ++
    " recall " ++ cell d.baseline "recall" ++ " -> " ++ cell d.candidate "recall" ++
    "  precision " ++ cell d.baseline "precision" ++ " -> " ++ cell d.candidate "precision" ++
    "  " ++ (if d.regressed then "REGRESSED" else "")
  String.ofList (Text.trimEnd line.toList)

/-- The lines on a comparison. -/
def comparisonLines (c : Comparison) : List String :=
  ["Baseline " ++ c.baselineId ++ " -> candidate " ++ c.candidateId, deltaLine c.overall] ++
  c.categories.flatMap (fun d => deltaLine d :: d.reasons.map fun r => "      " ++ r.message) ++
  c.notes.map fun n => "  note: " ++ n.message

/-- Compares two stored runs. -/
def compareRuns (setting : Setting) (a : CompareArguments) : Console ExitStatus := do
  let (s, _) ← settle setting a.config { Overrides.none with
    store := givenText a.store, threshold := a.threshold }
  let store := RunStore.mk s.store
  let c ← Console.look fun d => do
    let baseline ← store.load d a.baseline
    let candidate ← store.load d a.candidate
    Comparison.ofReports (.binary s.threshold) baseline candidate
  Console.sayAll (comparisonLines c)
  match a.out.filter (· != "") with
  | some out =>
    Console.ofDisk (Document.write (Path.ofText out) c.toValue)
    Console.say ("Comparison written to " ++ out)
  | none => pure ()
  if !c.hasRegression then return .ok
  Console.say ("Regressed categories: " ++ ", ".intercalate c.regressed)
  return if a.failOnRegression then .regression else .ok

/-! ## Validating a corpus and listing tools -/

/-- The lines on a corpus. -/
def corpusLines (c : Corpus) : List String :=
  ["Corpus OK: " ++ c.path.toText,
   "  version:     " ++ c.version,
   "  samples:     " ++ toString c.samples.length,
   "  findings:    " ++ toString c.listed.length ++ " (" ++ toString c.conditional ++
     " conditional)"] ++
  c.categoryCounts.map fun (category, n) => "    " ++ padRight 26 category ++ " " ++ toString n

/-- The lines on what a crosswalk does not map as a corpus has it. -/
def crosswalkLines (c : Corpus) (x : Crosswalk) : List String :=
  let problems := c.mismatches x
  ("  crosswalk:   " ++ x.version ++ " (" ++ toString x.rows.length ++ " rows, " ++
    toString problems.length ++ " rule mismatches)") :: problems.map ("    " ++ ·)

/-- Validates a corpus. -/
def validate (a : ValidateArguments) : Console ExitStatus := do
  let c ← Console.look fun d => Corpus.load d (Path.ofText a.corpus)
  Console.sayAll (corpusLines c)
  match pathOf? a.crosswalk with
  | some p => Console.sayAll (crosswalkLines c (← Console.look fun d => Crosswalk.load d p))
  | none => pure ()
  return .ok

/-- The lines on all tools. -/
def toolLines : List String :=
  let width := (Tool.keys.map String.length).foldl max 0
  Tool.all.flatMap fun t =>
    [padRight width t.key ++ "  format=" ++ padRight 8 t.format.label ++ " rules=" ++
       padRight 10 t.standard ++ " " ++ t.label,
     padRight width "" ++ "  " ++ t.command.getD "(needs --command or --tool-output)"]

/-- Does what is asked for. -/
def perform (setting : Setting) : Order → Console ExitStatus
  | .run a => run setting a
  | .compare a => compareRuns setting a
  | .validate a => validate a
  | .listTools => do
    Console.sayAll toolLines
    return .ok

end Assay.CommandLine
