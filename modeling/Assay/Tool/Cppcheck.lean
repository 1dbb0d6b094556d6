import Assay.Tool.Record
import Assay.Xml.Reader

/-!
# Cppcheck

The output is an XML document whose `errors` element holds one `error` element for each finding,
beside remarks about the run itself, which are dropped. A line or column below one is none.
-/

namespace Assay.Cppcheck

open ToolRecord

/-- What the words for severities mean. -/
def severities : List (String × Severity) :=
  [("error", .high), ("warning", .medium), ("style", .low), ("performance", .low),
   ("portability", .low), ("information", .info), ("debug", .info)]

/-- The remarks about a run that are no findings. -/
def bookkeeping : List String :=
  ["checkersReport", "missingInclude", "missingIncludeSystem", "toomanyconfigs"]

/-- The document of the output. -/
def document (raw : String) : Except Fault Xml.Element :=
  match Xml.read raw with
  | .ok e => .ok e
  | .error (.unencodable e) => .error (.unencodable e)
  | .error (.malformed reason line column) =>
    refuse ("cppcheck output is not valid XML: " ++ Xml.flawText reason line column) (shorten raw)

/-- Whether an element is a remark about the run. -/
def isBookkeeping (e : Xml.Element) : Bool := (e.attribute? "id").any bookkeeping.contains

/-- The records of the output. -/
def split (raw : String) : Except Fault (List ToolRecord) := do
  match (← document raw).child? "errors" with
  | none => refuse "cppcheck output has no <errors> element" (shorten raw)
  | some errors =>
    return (errors.children.filter fun (e, _) => !isBookkeeping e).map fun (e, tail) =>
      .element e tail

/-- The version that the output gives, if any. -/
def version? (raw : String) : Except Fault (Option String) :=
  versionIn (document raw) fun doc =>
    .ok (((doc.child? "cppcheck").bind (·.attribute? "version")).filter (· != ""))

/-- A line or column, if it is above zero. -/
def positive? (n : Option Int) : Option Int := n.filter (0 < ·)

/-- The first of two texts that is there and not empty. -/
def preferred (a b : Option String) : String := ((a.filter (· != "")).or b).getD ""

/-- Reads an element. -/
def parseElement (run : ToolRun) (e : Xml.Element) (tail : String) : Except Fault ToolFinding := do
  if !e.isNamed "error" then
    refuse "cppcheck record is not an <error> element" (shorten e.shown)
  let ruleId := Text.strip ((e.attribute? "id").getD "")
  if ruleId = "" then refuse "cppcheck <error> has no id" (shorten (e.toText tail))
  let place := e.child? "location"
  let field (name : String) : Option String := place.bind (·.attribute? name)
  return {
    tool := run.tool
    toolVersion := run.version
    ruleId
    file := Text.strip ((field "file").getD "")
    line := positive? (intOfText? (field "line"))
    column := positive? (intOfText? (field "column"))
    message := preferred (e.attribute? "verbose") (e.attribute? "msg")
    nativeSeverity := e.attribute? "severity" }

/-- Reads a record. -/
def parse (run : ToolRun) : ToolRecord → Except Fault ToolFinding
  | .element e tail => parseElement run e tail
  | .value v => refuse "cppcheck record is not an <error> element" (previewValue v)

end Assay.Cppcheck
