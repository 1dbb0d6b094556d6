import Assay.Text.Hex
import Assay.Xml.Name

/-!
# Pieces of XML markup

Every step reads one construct at the start of a text and returns the rest. A step that fails says
why and where: a construct that ends with the text is named by its start, any other flaw by the
character that does not belong.
-/

namespace Assay.Xml

/-- Why a text is no XML document. -/
inductive Reason where
  | noElement
  | invalidToken
  | unclosedToken
  | mismatchedTag
  | duplicateAttribute
  | junk
  | undefinedEntity
  | skippedEntity (name : String)
  | recursiveEntity
  | binaryEntity
  | externalInAttribute
  | amplification
  | asynchronousEntity
  | invalidReference
  | misplacedDeclaration
  | badDeclaration
  | unclosedSection
  | parameterReference
  | publicId
  | syntaxError
  | unboundPrefix
  | undeclaredPrefix
  | reservedXml
  | reservedXmlns
  | reservedSpace
  deriving Repr, DecidableEq

/-- The reason in words. -/
def Reason.message : Reason → String
  | .noElement => "no element found"
  | .invalidToken => "not well-formed (invalid token)"
  | .unclosedToken => "unclosed token"
  | .mismatchedTag => "mismatched tag"
  | .duplicateAttribute => "duplicate attribute"
  | .junk => "junk after document element"
  | .undefinedEntity => "undefined entity"
  | .skippedEntity name => "undefined entity &" ++ name ++ ";"
  | .recursiveEntity => "recursive entity reference"
  | .binaryEntity => "reference to binary entity"
  | .externalInAttribute => "reference to external entity in attribute"
  | .amplification => "limit on input amplification factor (from DTD and entities) breached"
  | .asynchronousEntity => "asynchronous entity"
  | .invalidReference => "reference to invalid character number"
  | .misplacedDeclaration => "XML or text declaration not at start of entity"
  | .badDeclaration => "XML declaration not well-formed"
  | .unclosedSection => "unclosed CDATA section"
  | .parameterReference => "illegal parameter entity reference"
  | .publicId => "illegal character(s) in public id"
  | .syntaxError => "syntax error"
  | .unboundPrefix => "unbound prefix"
  | .undeclaredPrefix => "must not undeclare prefix"
  | .reservedXml =>
    "reserved prefix (xml) must not be undeclared or bound to another namespace name"
  | .reservedXmlns => "reserved prefix (xmlns) must not be declared or undeclared"
  | .reservedSpace => "prefix must not be bound to one of the reserved namespace names"

/-- A failed step: the reason, and the rest of the text from the place of the flaw. -/
structure Stop where
  reason : Reason
  rest : List Char

/-- A construct that starts at `start` and does not end. -/
def unclosed (start : List Char) : Except Stop α := .error ⟨.unclosedToken, start⟩

/-- A character that does not belong where it stands. -/
def misplaced (rest : List Char) : Except Stop α := .error ⟨.invalidToken, rest⟩

/-- White space. -/
def isSpace (c : Char) : Bool := c == ' ' || c == '\t' || c == '\n' || c == '\r'

/-- The rest after white space. -/
def skipSpace (cs : List Char) : List Char := cs.dropWhile isSpace

/-- A character that can stand in a document at all. -/
def isAllowed (c : Char) : Bool :=
  isSpace c || (0x20 ≤ c.toNat && c.toNat != 0xFFFE && c.toNat != 0xFFFF)

/-! ## Names and references -/

/-- A name; `start` is where the construct around it starts. -/
def nameAt (start cs : List Char) : Except Stop (List Char × List Char) :=
  match cs with
  | [] => unclosed start
  | c :: _ => if isNameStart c then .ok (cs.span isNameChar) else misplaced cs

/-- A name as it stands in the text: a label, which may follow the short form of a name space. -/
structure Qualified where
  short? : Option (List Char)
  label : List Char
  deriving Repr, DecidableEq

/-- The characters of a name as it stands in the text. -/
def Qualified.chars (n : Qualified) : List Char :=
  match n.short? with
  | some p => p ++ ':' :: n.label
  | none => n.label

/-- The name of some characters, in which the first colon divides. -/
def Qualified.ofChars (cs : List Char) : Qualified :=
  match cs.span (· != ':') with
  | (short, _ :: label) => ⟨some short, label⟩
  | (label, []) => ⟨none, label⟩

/-- A qualified name: one name, or two with a colon between them. -/
def qualifiedAt (start cs : List Char) : Except Stop (Qualified × List Char) := do
  let (first, rest) ← nameAt start cs
  match rest with
  | ':' :: more =>
    let (second, rest) ← nameAt start more
    match rest with
    | ':' :: _ => misplaced rest
    | _ => return (⟨some first, second⟩, rest)
  | _ => return (⟨none, first⟩, rest)

/-- What a reference stands for. -/
inductive Reference where
  | code (n : Nat)
  | entity (name : String)
  deriving Repr, DecidableEq

/-- The number of decimal digits. -/
def decimal (cs : List Char) : Nat := cs.foldl (fun n c => n * 10 + (c.toNat - 48)) 0

/-- The number of hexadecimal digits. -/
def hexadecimal (cs : List Char) : Nat :=
  cs.foldl (fun n c => n * 16 + (Text.hexValue? c).getD 0) 0

/-- The digits of a numbered reference, and the semicolon after them. -/
def digitsAt (start : List Char) (isDigit : Char → Bool) (cs : List Char) : Except Stop (List Char × List Char) :=
  match cs.span isDigit with
  | (_, []) => unclosed start
  | (ds, ';' :: rest) => if ds.isEmpty then misplaced cs else .ok (ds, rest)
  | (_, rest) => misplaced rest

/-- A reference after its ampersand. -/
def referenceAt (start cs : List Char) : Except Stop (Reference × List Char) :=
  match cs with
  | '#' :: 'x' :: rest => do
    let (ds, rest) ← digitsAt start (fun c => (Text.hexValue? c).isSome) rest
    return (.code (hexadecimal ds), rest)
  | '#' :: rest => do
    let (ds, rest) ← digitsAt start Char.isDigit rest
    return (.code (decimal ds), rest)
  | _ => do
    let (name, rest) ← nameAt start cs
    match rest with
    | [] => unclosed start
    | ';' :: rest => return (.entity (String.ofList name), rest)
    | _ => misplaced rest

/-- The character of a code point that a reference may name. -/
def referenced? (n : Nat) : Option Char :=
  if 0x10FFFF < n ∨ (0xD800 ≤ n ∧ n ≤ 0xDFFF) then none
  else if isAllowed (Char.ofNat n) then some (Char.ofNat n)
  else none

/-- The entities that every document has. -/
def predefined : List (String × Char) :=
  [("lt", '<'), ("gt", '>'), ("amp", '&'), ("quot", '"'), ("apos", '\'')]

/-! ## Comments, instructions, sections -/

/-- The rest after a comment, from after its opening. -/
def commentAt (start : List Char) : List Char → Except Stop (List Char)
  | [] => unclosed start
  | ['-'] => unclosed start
  | ['-', '-'] => unclosed start
  | '-' :: '-' :: c :: rest => if c = '>' then .ok rest else misplaced (c :: rest)
  | c :: rest => if isAllowed c then commentAt start rest else misplaced (c :: rest)

/-- The rest after the body of an instruction. -/
def instructionBodyAt (start : List Char) : List Char → Except Stop (List Char)
  | [] => unclosed start
  | '?' :: '>' :: rest => .ok rest
  | c :: rest => if isAllowed c then instructionBodyAt start rest else misplaced (c :: rest)

/-- Whether a target is that of the XML declaration, in any case of letters. -/
def isXmlTarget (target : List Char) : Bool := target.map Char.toLower == "xml".toList

/-- An instruction after its opening: whether it is an XML declaration, and the rest. -/
def instructionAt (start cs : List Char) : Except Stop (Bool × List Char) := do
  let (target, rest) ← nameAt start cs
  let isDeclaration := target == "xml".toList
  match rest with
  | [] => unclosed start
  | '?' :: more =>
    if isXmlTarget target && !isDeclaration then misplaced rest
    else match more with
      | [] => unclosed start
      | '>' :: rest => return (isDeclaration, rest)
      | _ => misplaced more
  | c :: more =>
    if !isSpace c || (isXmlTarget target && !isDeclaration) then misplaced rest
    else return (isDeclaration, ← instructionBodyAt start more)

/-- The text of a section from after its opening, with the ends of lines unified, unless the text is
that of an entity and they are unified already. -/
def sectionAt (isInner : Bool) : List Char → Except Stop (List Char × List Char)
  | [] => .error ⟨.unclosedSection, []⟩
  | [']'] => .error ⟨.unclosedSection, [']']⟩
  | [']', ']'] => .error ⟨.unclosedSection, [']', ']']⟩
  | ']' :: ']' :: '>' :: rest => .ok ([], rest)
  | '\r' :: '\n' :: rest => do
    let (cs, rest) ← sectionAt isInner rest
    return (if isInner then '\r' :: '\n' :: cs else '\n' :: cs, rest)
  | c :: rest =>
    if !isAllowed c then misplaced (c :: rest)
    else if c = '\r' && !isInner then do
      if rest.isEmpty then throw ⟨.unclosedSection, ['\r']⟩
      let (cs, rest) ← sectionAt isInner rest
      return ('\n' :: cs, rest)
    else do
      let (cs, rest) ← sectionAt isInner rest
      return (c :: cs, rest)

/-- The rest after the opening of a section, given what follows its first two characters. -/
def sectionOpeningAt (start : List Char) (cs : List Char) : Except Stop (List Char) :=
  let word := "CDATA[".toList
  if cs.length < word.length then unclosed start
  else
    let same := ((cs.zip word).takeWhile fun (a, b) => a == b).length
    if same < word.length then misplaced (cs.drop same) else .ok (cs.drop word.length)

/-! ## Tags -/

/-- An attribute as it stands in a tag: its name, the text from its name on, its value, and the text
from the quote after its value on. -/
structure RawAttribute where
  name : Qualified
  place : List Char
  value : List Char
  after : List Char

/-- The rest after the value of an attribute, from after its opening quote. The bound is on the
number of characters. -/
def valueEnd (start : List Char) (quote : Char) : Nat → List Char → Except Stop (List Char)
  | 0, _ => unclosed start
  | _, [] => unclosed start
  | bound + 1, c :: rest =>
    if c = quote then .ok rest
    else if c = '<' || !isAllowed c then misplaced (c :: rest)
    else if c = '&' then do
      let (_, rest) ← referenceAt start rest
      valueEnd start quote bound rest
    else valueEnd start quote bound rest

/-- An attribute from its name. -/
def attributeAt (start cs : List Char) : Except Stop (RawAttribute × List Char) := do
  let (name, rest) ← qualifiedAt start cs
  match skipSpace rest with
  | [] => unclosed start
  | '=' :: rest =>
    match skipSpace rest with
    | [] => unclosed start
    | q :: value =>
      if q = '"' ∨ q = '\'' then
        let rest ← valueEnd start q (value.length + 1) value
        return (⟨name, cs, value.take (value.length - rest.length - 1), q :: rest⟩, rest)
      else misplaced (q :: value)
  | other => misplaced other

/-- The attributes of a tag and whether the tag ends its element, from after the name. The bound is
on the number of attributes. -/
def tagRestAt (start : List Char) : Nat → List Char → Except Stop ((List RawAttribute × Bool) × List Char)
  | 0, _ => unclosed start
  | _, [] => unclosed start
  | _, '>' :: rest => .ok (([], false), rest)
  | _, '/' :: rest =>
    match rest with
    | [] => unclosed start
    | '>' :: rest => .ok (([], true), rest)
    | _ => misplaced rest
  | bound + 1, c :: rest =>
    if !isSpace c then misplaced (c :: rest)
    else match skipSpace rest with
      | [] => unclosed start
      | '>' :: rest => .ok (([], false), rest)
      | '/' :: rest =>
        match rest with
        | [] => unclosed start
        | '>' :: rest => .ok (([], true), rest)
        | _ => misplaced rest
      | inside => do
        let (a, rest) ← attributeAt start inside
        let ((as, ended), rest) ← tagRestAt start bound rest
        return ((a :: as, ended), rest)

/-- The name in an end tag, from after its opening. -/
def endTagAt (start cs : List Char) : Except Stop (List Char × List Char) := do
  match cs with
  | [] => unclosed start
  | c :: _ =>
    if !isNameStart c then misplaced cs
    let (name, rest) := cs.span fun c => isNameChar c || c == ':'
    match rest with
    | [] => unclosed start
    | '>' :: rest => return (name, rest)
    | c :: more =>
      if !isSpace c then misplaced rest
      else match skipSpace more with
        | [] => unclosed start
        | '>' :: rest => return (name, rest)
        | other => misplaced other

end Assay.Xml
