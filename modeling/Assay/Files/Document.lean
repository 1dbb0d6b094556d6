import Assay.Files.Disk
import Assay.Json.Writer
import Assay.Yaml.Document

/-!
# Document files

A document file is read as JSON if its suffix says so and as YAML otherwise, and is always written
as JSON.
-/

namespace Assay.Document

/-- What is shown in place of the place and cause of a YAML error. -/
def yamlDetail : String := "<yaml error>"

/-- Reads a text as JSON; a text that is none is named by its path. -/
def readJson (path : String) (text : String) : Except Fault Value :=
  match Json.read text with
  | .ok v => .ok v
  | .error (.numeral e) => .error (.numeral e)
  | .error e => .error (.document "JSON" path e.message)

/-- Reads a text as YAML; a text that is none is named by its path. -/
def readYaml (path : String) (text : String) : Except Fault Value :=
  match Yaml.read text with
  | .ok v => .ok v
  | .error e =>
    match e with
    | .malformed => .error (.document "YAML" path yamlDetail)
    | .numeral n => .error (.numeral n)
    | .calendar c => .error (.calendar c)
    | .notTruth => .error .noEntry
    | .noText => .error .noPlace
    | .notDate => .error .noFields
    | .notText => .error .wrongKind
    | .tooLarge => .error .tooLarge
    | .codePoint => .error (.rejected .codePoint)

/-- Reads the text of a document file. -/
def ofText (p : Path) (text : String) : Except Fault Value :=
  if p.suffix.map Char.toLower = ".json" then readJson p.toText text else readYaml p.toText text

/-- Reads a document file. -/
def read (d : Disk) (p : Path) : Except Fault Value := do ofText p (← d.readText p)

/-- Reads a file that must be JSON whatever its suffix. -/
def readRecord (d : Disk) (p : Path) : Except Fault Value := do
  (Json.read (← d.readText p)).mapError fun
    | .numeral e => .numeral e
    | e => .malformedJson e

/-- Writes a value to a file as JSON. -/
def write (p : Path) (v : Value) : OnDisk Unit := do
  OnDisk.writeText p (← OnDisk.look fun _ => Json.document v)

end Assay.Document
