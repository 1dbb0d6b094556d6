import Assay.Files.Document
import Assay.Report
import Assay.RunStore.Allocation

/-!
# The run store

A store keeps one directory for each run, and in it the report and, written last, the key of the
report. Storing a run is a list of steps on the directory of all runs; a run is listed once its last
step is done, and no step touches another run.
-/

namespace Assay

/-- A place where runs are stored. -/
structure RunStore where
  path : Path
  deriving Repr, DecidableEq

namespace RunStore

/-- The directory of all runs. -/
def runs (s : RunStore) : Path := s.path.child "runs"

/-- The name of the file that holds the report of a run. -/
def reportName : String := "report.json"

/-- The name of the file that holds the key of a run. -/
def keyName : String := "key.json"

/-! ## Storing -/

/-- One step of storing a run. -/
inductive Step where
  /-- The directory of the run is made. -/
  | create (id : String)
  /-- A file of the run appears with its whole content. -/
  | write (id name : String) (bytes : List UInt8)
  deriving Repr

/-- The runs after a step. -/
def Step.apply (runs : Directory) : Step → Directory
  | .create id => runs.put id (.dir [])
  | .write id name bytes =>
    match runs.get? id with
    | some (.dir files) => runs.put id (.dir (Directory.put name (.file bytes) files))
    | _ => runs

/-- What storing a run does, and what it comes to. -/
structure Plan where
  steps : List Step
  outcome : Except Fault String

/-- The runs after the steps of a plan. -/
def Plan.apply (p : Plan) (runs : Directory) : Directory := p.steps.foldl Step.apply runs

/-- The bytes of a document that is written to a path. It is first written beside its place, where the
name is longer. -/
def bytesFor (p : Path) (v : Value) : Except Fault (List UInt8) := do
  let text ← Json.document v
  if Disk.maxPath < Disk.width p.toText + Disk.stagingWidth then throw (.file .nameTooLong)
  (Utf8.encode? text).mapError Fault.unencodable

/-- How a report is stored under an id below the place of all runs. A path that is too long or a text
that has no bytes ends the plan where it is met. -/
def planUnder (place : Path) (id : String) (r : Report) : Plan :=
  let report := r.withRunId id
  let run := place.child id
  if Disk.maxPath < Disk.width run.toText then ⟨[], .error (.file .nameTooLong)⟩
  else match bytesFor (run.child reportName) report.toValue, bytesFor (run.child keyName) report.keyValue with
    | .ok a, .ok b => ⟨[.create id, .write id reportName a, .write id keyName b], .ok id⟩
    | .ok a, .error e => ⟨[.create id, .write id reportName a], .error e⟩
    | .error e, _ => ⟨[.create id], .error e⟩

/-- How a report is stored now. The place of all runs is named in the fault of a full store. -/
def plan (now : Moment) (place : Path) (r : Report) (runs : Directory) : Plan :=
  match freeId now runs with
  | some id => planUnder place id r
  | none => ⟨[], .error (.storeFull now.date.stamp place.toText)⟩

/-- Changes the directory of all runs, which is made if it is missing. -/
def onRuns (s : RunStore) (f : Directory → Except Fault α × Directory) : OnDisk α :=
  OnDisk.act fun d =>
    match d.mkdirs s.runs with
    | (.error e, d) => (.error e, d)
    | (.ok (), d) =>
      match d.locate s.runs, d.find s.runs with
      | .ok place, .ok (.dir runs) =>
        let (r, runs) := f runs
        (r, { d with top := d.top.put place (.dir runs) })
      | .error e, _ => (.error (.file e), d)
      | _, _ => (.error (.file .notDirectory), d)

/-- Takes an id now: the directory of a run without files. -/
def allocate (s : RunStore) (now : Moment) : OnDisk String :=
  s.onRuns fun runs =>
    match freeId now runs with
    | some id =>
      if Disk.maxPath < Disk.width (s.runs.child id).toText then (.error (.file .nameTooLong), runs)
      else (.ok id, Step.apply runs (.create id))
    | none => (.error (.storeFull now.date.stamp s.runs.toText), runs)

/-- Stores a report now and gives its id. -/
def store (s : RunStore) (now : Moment) (r : Report) : OnDisk String :=
  s.onRuns fun runs =>
    let p := plan now s.runs r runs
    (p.outcome, p.apply runs)

/-! ## Reading -/

/-- The path of a file of a run. -/
def file (s : RunStore) (id name : String) : Path := (s.runs.child id).child name

/-- Whether a fault says that what is stored is no report. -/
def isCorruption : Fault → Bool
  | .wrongKind | .noFields | .noEntry => true
  | f => f.isOfValue

/-- Reads the report of a run. -/
def load (s : RunStore) (d : Disk) (given : String) : Except Fault Report := do
  let id := Text.strip given
  if !isDigits id.toList then throw (.runNotFound id)
  let p := s.file id reportName
  if !(← d.isFile p) then throw (.runNotFound id)
  match do Report.ofValue (← Document.readRecord d p) with
  | .ok r => return if r.runId.isNone then r.withRunId given else r
  | .error f => throw (if isCorruption f then .corruptRun given f.message else f)

/-- What the keys of the runs asked for must hold; a field without a text may hold anything. -/
abbrev Filters := List (String × Option String)

/-- Whether a stored key holds what is asked for. -/
def admits (key : Value) : Filters → Except Fault Bool
  | [] => .ok true
  | (_, none) :: rest => admits key rest
  | (name, some text) :: rest => do
    let fields ← key.requireFields
    if (fields.get name).toText = text then admits key rest else return false

/-- Whether a run is complete: both of its files are there, the key first. -/
def isComplete (s : RunStore) (d : Disk) (id : String) : Except Fault Bool := do
  if ← d.isFile (s.file id keyName) then d.isFile (s.file id reportName) else return false

/-- The ids among some names whose runs are complete and whose keys hold what is asked for. -/
def listFrom (s : RunStore) (d : Disk) (filters : Filters) :
    List String → Except Fault (List String)
  | [] => .ok []
  | id :: rest => do
    if !(← s.isComplete d id) then return ← listFrom s d filters rest
    let key ← Document.readRecord d (s.file id keyName)
    let fits ← admits key filters
    let others ← listFrom s d filters rest
    return if fits then id :: others else others

/-- The names of the runs in a directory, in ascending order. -/
def names (runs : Directory) : List String :=
  Diagnostics.ascending ((runs.filter fun (name, n) => n.isDir && isRunName name).map (·.1))

/-- The ids of the stored runs whose keys hold what is asked for, in ascending order. -/
def list (s : RunStore) (d : Disk) (filters : Filters) : Except Fault (List String) := do
  let unknown := (filters.map (·.1)).filter fun name => !Report.keyFields.contains name
  if !unknown.isEmpty then throw (.rejected (.unknownKeyFields (Diagnostics.ascending unknown)))
  match ← d.find? s.runs with
  | some (.dir runs) => listFrom s d filters (names runs)
  | _ => return []

end RunStore

end Assay
