import Assay.Invocation.Template
import Assay.Shell
import Assay.Tool

/-!
# Running a tool

A tool is run in the directory of the corpus and may end with any status, since tools report what
they find that way. A tool that cannot be started, is killed or takes too long has failed; what it
reported before failing is kept. Its report is the file that its command names a place for, or the
stream that the tool is known to report on.
-/

namespace Assay

/-- How long a tool may take. -/
structure TimeLimit where
  /-- The number of seconds as it was given. -/
  shown : String
  /-- Microseconds; without a limit, none. -/
  micros : Option Nat
  deriving Repr, DecidableEq

namespace TimeLimit

/-- The limit that a number of seconds is; one that is not positive is none. -/
def ofValue (v : Value) : TimeLimit :=
  { shown := v.toText
    micros := match v with
      | .int n => if 0 < n then some (n.toNat * 1000000) else none
      | .float x =>
        match Binary64.ratio? x with
        | some (n, d) => if 0 < n then some ((n.toNat * 1000000 + d - 1) / d) else none
        | none => none
      | _ => none }

/-- The longest time that can be waited for. -/
def longest : Nat := 2147483647000

/-- Whether a limit is longer than can be waited for. -/
def isTooLong (t : TimeLimit) : Bool := t.micros.any (longest < ·)

end TimeLimit

/-- A tool run that came to its end. -/
structure Invocation where
  /-- The command as it was run. -/
  command : String
  status : Nat
  stdout : String
  stderr : String
  deriving Repr, DecidableEq

namespace Invocation

/-- Bytes as text as they are; a flaw becomes a replacement character. -/
def rawText (bytes : List UInt8) : String := Utf8.decodeLossy bytes

/-- A failed run of a tool. -/
def fault (tool : String) (failure : RunFailure) (stdout stderr : String) : Assay.Fault :=
  .invocation ⟨tool, failure, stdout, stderr⟩

/-- What an outcome is to the caller. -/
def ofOutcome (tool : String) (words : List String) (limit : TimeLimit) (o : Shell.Outcome) :
    Except Assay.Fault Invocation :=
  match o.ending with
  | .exited status =>
    .ok ⟨Shell.join words, status, Disk.lossyTextOf o.stdout, Disk.lossyTextOf o.stderr⟩
  | .killed signal =>
    .error (fault tool (.killed signal) (Disk.lossyTextOf o.stdout) (Disk.lossyTextOf o.stderr))
  | .timedOut =>
    .error (fault tool (.timedOut limit.shown) (rawText o.stdout) (rawText o.stderr))

/-- The disk with a working directory, if the path leads to one. -/
def enter (d : Disk) : Option Path → Except Shell.StartFault Disk
  | none => .ok d
  | some p =>
    match d.locate p, d.find p with
    | .ok place, .ok (.dir _) => .ok { d with cwd := place }
    | .error f, _ => .error (.ofFile f)
    | _, _ => .error .notDirectory

/-- Runs a command in a directory. -/
def run (words : List String) (tool : String) (place : Option Path) (limit : TimeLimit) :
    OnDisk Invocation :=
  OnDisk.act fun d =>
    let notStarted (name : String) (f : Shell.StartFault) : Assay.Fault :=
      fault tool (.notStarted (f.message name)) "" ""
    match words with
    | [] => (.error .noPlace, d)
    | name :: args =>
      if words.any (·.toList.contains '\x00') then (.error (.rejected .embeddedNull), d)
      else match enter d place with
        | .error f => (.error (notStarted ((place.map Path.toText).getD "") f), d)
        | .ok inside =>
          match Shell.resolve inside name with
          | .error f => (.error (notStarted name f), d)
          | .ok program =>
            if limit.isTooLong then (.error .tooLarge, d)
            else
              let (o, after) := Shell.execute program args limit.micros inside
              (ofOutcome tool words limit o, { after with cwd := d.cwd })

/-- The report of a tool, and how its run ended. -/
structure Reported where
  report : String
  run : Invocation
  deriving Repr, DecidableEq

/-- The directory for the report file of a tool. It exists only while the tool runs. -/
def reportDirectory (t : Tool) : Path := Path.ofNames ["tmp", "defect-bench-" ++ t.key ++ "-run"]

/-- The text of a report file, empty if the tool wrote none. -/
def reportText (d : Disk) (p : Path) : Except Assay.Fault String := do
  if ← d.isFile p then d.readLossy p else return ""

/-- A failed run with the report that the tool left in place of what it wrote. -/
def withReport (t : Tool) (d : Disk) (file : Option Path) (f : Invocation.Fault) :
    Except Assay.Fault Invocation.Fault := do
  match file with
  | some p => return { f with stdout := ← reportText d p }
  | none => return if t.stream = .stderr then { f with stdout := f.stderr } else f

/-- The report of a run that ended. -/
def reportOf (t : Tool) (d : Disk) (file : Option Path) (r : Invocation) :
    Except Assay.Fault Reported := do
  let report ← match file with
    | some p => reportText d p
    | none => pure (if t.stream = .stderr then r.stderr else r.stdout)
  return ⟨report, r⟩

/-- Runs a tool whose report file, if its template has a place for one, is given. -/
def reportFrom (t : Tool) (corpus : Path) (template : String) (file : Option Path)
    (limit : TimeLimit) : OnDisk Reported := do
  let words ← OnDisk.look fun d => Template.command d template corpus file
  match ← OnDisk.attempt (run words t.key (some corpus) limit) with
  | .ok r => OnDisk.look fun d => reportOf t d file r
  | .error (.invocation f) => throw (.invocation (← OnDisk.look fun d => withReport t d file f))
  | .error f => throw f

/-- Runs a tool over a corpus and gives its report. -/
def report (t : Tool) (corpus : Path) (template : String) (limit : TimeLimit) :
    OnDisk Reported := do
  let dir := reportDirectory t
  OnDisk.act fun d => d.mkdirs dir
  let file := if Template.usesOutput template then some (dir.child "report.out") else none
  let r ← OnDisk.attempt (reportFrom t corpus template file limit)
  OnDisk.act fun d => (.ok (), d.remove dir)
  match r with
  | .ok r => return r
  | .error f => throw f

/-- The seconds that a tool may take to tell its version. -/
def probeLimit : TimeLimit := .ofValue (.int 30)

/-- The first line of an output that is not blank, if the output is not all blank. -/
def firstLine (text : String) : Option String :=
  ((Text.splitLines text).map Text.strip).find? (· != "")

/-- The version that a tool tells of itself, if it does. -/
def probe (t : Tool) : OnDisk (Option String) := do
  match t.versionCommand.filter (· != "") with
  | none => return none
  | some text =>
    let words ← OnDisk.look fun _ => (Shell.split text).mapError .rejected
    match ← OnDisk.attempt (run words t.key none probeLimit) with
    | .ok r => return firstLine (if r.stdout != "" then r.stdout else r.stderr)
    | .error (.invocation _) => return none
    | .error f => throw f

end Invocation

end Assay
