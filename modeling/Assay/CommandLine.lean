import Assay.CommandLine.Commands

/-!
# The command line

A command line is read and done. A fault that the user can mend is reported in words and gives a
status of its own; every problem of a corpus is listed. Any other fault is the ending itself. What was
printed and what was written before a fault stays.
-/

namespace Assay.CommandLine

/-- How a program ends: with the status of a command, before any command was begun, or with a fault
that is not reported. -/
inductive Exit where
  | status (code : Nat)
  | early (code : Nat)
  | failed (f : Fault)

/-- What a program leaves: its ending and what it printed. -/
structure Response where
  exit : Exit
  stdout : String
  stderr : String

/-- Lines as a text, each with its end. -/
def textOfLines (lines : List String) : String := String.join (lines.map (· ++ "\n"))

/-- What a program leaves whose command line was not read to its end. -/
def Halt.response : Halt → Response
  | .usage program message =>
    ⟨.early ExitStatus.usage.code, "", program ++ ": error: " ++ message ++ "\n"⟩
  | .help program => ⟨.early 0, "usage: " ++ program ++ "\n", ""⟩
  | .version => ⟨.early 0, programName ++ " " ++ programVersion ++ "\n", ""⟩

/-- Whether a fault is one that the user can mend. -/
def isReported : Fault → Bool
  | .corpus _ | .settings _ | .crosswalk _ | .record _ | .invocation _ | .unknownTool ..
  | .runNotFound _ | .storeFull .. | .corruptRun .. => true
  | _ => false

/-- The ending and the error lines that a fault gives, if it is reported. -/
def report? (f : Fault) : Option (ExitStatus × List String) :=
  match f with
  | .corpus problems =>
    some (.corpus, ("Corpus validation failed (" ++ toString problems.length ++ " problem(s)):") ::
      problems.map ("  - " ++ ·))
  | f => if isReported f then some (.usage, ["error: " ++ f.message]) else none

/-- Makes a log file, which stays empty, unless it is there already. -/
def openLog (path : Option Path) : OnDisk Unit := do
  match path with
  | none => return ()
  | some p =>
    OnDisk.act fun d => d.mkdirs p.parent
    OnDisk.act fun d =>
      match d.find p with
      | .ok (.file _) => (.ok (), d)
      | _ => d.replace p []

/-- What a program leaves whose command has ended. -/
def responseOf (result : Except Fault ExitStatus) (lines : List String) : Response :=
  match result with
  | .ok status => ⟨.status status.code, textOfLines lines, ""⟩
  | .error f =>
    match report? f with
    | some (status, errors) => ⟨.status status.code, textOfLines lines, textOfLines errors⟩
    | none => ⟨.failed f, textOfLines lines, ""⟩

/-- Does what a request asks for. -/
def answer (setting : Setting) (r : Request) : StateM Disk Response := do
  match ← (openLog (pathOf? r.logFile)).run with
  | .error f => return ⟨.failed f, "", ""⟩
  | .ok () =>
    let ((result, lines), d) := (((perform setting r.order).run []).run (← get))
    set d
    return responseOf result lines

/-- Reads a command line and does what it asks for. -/
def execute (setting : Setting) (words : List String) : StateM Disk Response :=
  match Request.ofWords words with
  | .ok r => answer setting r
  | .error h => return h.response

end Assay.CommandLine
