import Assay.Finding
import Assay.Xml.Element

/-!
# Records of tool output

The output of a tool is cut into records, each of which should be one finding. A record that is not
is refused with a reason and a preview of the record.
-/

namespace Assay

/-- A record of tool output: a value, which may be a line of text, or an element with the text after
it. -/
inductive ToolRecord where
  | value (v : Value)
  | element (e : Xml.Element) (tail : String)
  deriving Inhabited

/-- The tool whose output is read, and its version. -/
structure ToolRun where
  tool : String
  version : String
  deriving Repr, DecidableEq

namespace ToolRecord

/-- The most characters of a record that a preview shows. -/
def previewWidth : Nat := 200

/-- A text cut to the width of a preview. -/
def shorten (s : String) : String :=
  let cs := Text.trim s.toList
  let us := Text.units cs
  if previewWidth < us.length then
    String.ofList (Text.ofUnits (us.take previewWidth)) ++ "..."
  else String.ofList cs

/-- A value as previews show it: a text stands for itself. -/
def previewValue : Value → String
  | .text s => shorten s
  | v => shorten v.shown

/-- The fault of a record. -/
def refuse (message preview : String) : Except Fault α := .error (.record ⟨message, some preview⟩)

/-- The integer that a value is written as, if it is one. -/
def intOf? : Value → Option Int
  | .null => none
  | .bool _ => none
  | v => (Numeral.readInt (Text.strip v.toText)).toOption

/-- The integer that an attribute is written as, if it is one. -/
def intOfText? (s : Option String) : Option Int := s.bind fun s => intOf? (.text s)

/-- The fields of a record; what is no mapping is refused. -/
def requireFields (v : Value) (what : String) : Except Fault Value :=
  if v.isMap then .ok v else refuse (what ++ " is not an object") (previewValue v)

/-- The text of a field that a record must have; `shown` is the preview of the record. -/
def requireText (v : Value) (what shown : String) : Except Fault String :=
  match v with
  | .null | .list _ | .map _ => refuse ("missing " ++ what) shown
  | v =>
    let s := Text.strip v.toText
    if s = "" then refuse ("empty " ++ what) shown else .ok s

/-- The items of a value: null has none, and anything but a list is its own only item. -/
def itemsOf : Value → List Value
  | .null => []
  | .list vs => vs
  | v => [v]

/-- A value as a text, unless it is null. -/
def textOf? (v : Value) : Option String := if v.isNull then none else some v.toText

/-- Reads the text of a JSON container. Text that is none is refused; a number that is too long is a
fault of its own. -/
def readContainer (raw what : String) : Except Fault Value :=
  match Json.read raw with
  | .ok v => .ok v
  | .error (.numeral e) => .error (.numeral e)
  | .error e => refuse (what ++ ": " ++ e.message) (shorten raw)

/-- The version that a container gives; a container that is refused gives none. -/
def versionIn (container : Except Fault α) (version : α → Except Fault (Option String)) :
    Except Fault (Option String) :=
  match container with
  | .ok c => version c
  | .error (.record _) => .ok none
  | .error f => .error f

end ToolRecord

end Assay
