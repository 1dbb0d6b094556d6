import Assay.Crosswalk
import Assay.Files.Document

/-!
# Crosswalk files

A crosswalk file holds a version and rows. A corpus may hold one under a default name.
-/

namespace Assay.Crosswalk

/-- The names under which a corpus may hold its crosswalk, the preferred one first. -/
def defaultNames : List String := ["crosswalk.yaml", "crosswalk.yml", "crosswalk.json"]

/-- The crosswalk of the document of a file. -/
def ofDocument (path : String) (doc : Value) : Except Fault Crosswalk := do
  if !doc.isMap then throw (.crosswalk (.notMapping path))
  let version := doc.get "version"
  if version.isNull || version.same (.text "") then throw (.crosswalk (.missingVersion path))
  match (doc.get "rows").list? with
  | some rows => ofRows (.text (← version.toText?.mapError .numeral)) rows
  | none => throw (.crosswalk (.rowsNotList path))

/-- Reads a crosswalk file. -/
def load (d : Disk) (p : Path) : Except Fault Crosswalk := do
  if !(← d.isFile p) then throw (.crosswalk (.fileNotFound p.toText))
  match Document.read d p with
  | .ok doc => ofDocument p.toText doc
  | .error f => throw (if f.isOfValue then .crosswalk (.unreadable f.message) else f)

/-- Reads the first crosswalk file that exists among some names in a directory. -/
def loadFirst (d : Disk) (root : Path) : List String → Except Fault Crosswalk
  | [] => .error (.settings (.noCrosswalk defaultNames root.toText))
  | name :: rest => do
    if ← d.isFile (root.child name) then load d (root.child name) else loadFirst d root rest

/-- The crosswalk of a run: the file that is given, or the one that the corpus holds. -/
def choose (d : Disk) (root : Path) : Option Path → Except Fault Crosswalk
  | some p => load d p
  | none => loadFirst d root defaultNames

end Assay.Crosswalk
