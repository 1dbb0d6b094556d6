import Assay.Text.Utf8
import Assay.Xml.Element
import Assay.Xml.Prolog

/-!
# Reading XML

A document is a prolog, one element, and nothing after it but comments and instructions. Names are
resolved to name spaces by the declarations around them. An entity is read where it is referred to;
whatever is wrong with it is reported there.
-/

namespace Assay.Xml

/-! ## Attributes and name spaces -/

/-- Prefixes and the name spaces that they stand for, the innermost first. -/
abbrev Bindings := List (String × String)

/-- The name space of the declarations of name spaces. -/
def declarationSpace : String := Element.spaceOf Element.standardHost "2000/xmlns/"

/-- The bindings with one more, unless a rule forbids it. -/
def bind (bs : Bindings) (name space : String) : Except Reason Bindings :=
  if space = "" ∧ name ≠ "" then .error .undeclaredPrefix
  else if name = "xmlns" then .error .reservedXmlns
  else if space.toList.contains '\x7d' then .error .syntaxError
  else if name = "xml" ∧ space ≠ Element.xmlSpace then .error .reservedXml
  else if name ≠ "xml" ∧ space = Element.xmlSpace then .error .reservedSpace
  else if space = declarationSpace then .error .reservedSpace
  else .ok ((name, space) :: bs)

/-- The name of a qualified name; a name without prefix is in the given name space. -/
def resolve (bs : Bindings) (default_ : String) (n : Qualified) : Except Reason Name :=
  match n.short? with
  | none => .ok ⟨default_, String.ofList n.label⟩
  | some p =>
    match bs.lookup (String.ofList p) with
    | some space => .ok ⟨space, String.ofList n.label⟩
    | none => .error .unboundPrefix

/-- An attribute with its value. -/
structure PlainAttribute where
  name : Qualified
  value : String

/-- Whether a name declares a name space, and for which short form. -/
def Qualified.declares? (n : Qualified) : Option String :=
  if n = ⟨none, "xmlns".toList⟩ then some ""
  else if n.short? = some "xmlns".toList then some (String.ofList n.label)
  else none

/-- Where content stands. -/
structure Context where
  declared : Declared
  bindings : Bindings
  /-- The entities that are being read. -/
  active : List String
  /-- Inside an entity, what follows the outermost reference in the document. -/
  after : Option (List Char)
  /-- Whether the content is that of an entity itself, not of an element in it. -/
  outermost : Bool

/-- Whether the text is that of an entity, in which the ends of lines are unified already. -/
def Context.isInner (x : Context) : Bool := x.after.isSome

/-- The limit on replacements, with what follows in the text that is being read. -/
def Context.limit (x : Context) (rest : List Char) : Limit :=
  ⟨x.declared.size, x.after.getD rest⟩

/-- A step that keeps count of the size of what has replaced references. -/
abbrev Counting (α : Type) := StateT Nat (Except Stop) α

/-- A step whose flaws all count as flaws of one place. -/
def located (place : List Char) (step : Counting α) : Counting α := fun spent =>
  match step spent with
  | .error e => .error ⟨e.reason, place⟩
  | .ok done => .ok done

/-- The value of an attribute of a tag; `rest` follows the tag. -/
def plainAttribute (x : Context) (rules : List AttributeRule) (start rest : List Char)
    (a : RawAttribute) : Counting PlainAttribute := fun spent =>
  let isWords := (rules.find? (·.name == a.name)).any (·.isWords)
  match attributeText ⟨x.declared, x.limit rest, isWords⟩ x.isInner x.active spent a.value with
  | .error e => .error ⟨e.reason, (e.rest.map (· ++ a.after)).getD start⟩
  | .ok (cs, spent) => .ok (⟨a.name, String.ofList (Text.hold cs)⟩, spent)

/-- The attributes with one more, unless it declares a name space and so adds to the bindings. -/
def addPlain (start : List Char) (bs : Bindings) (as : List PlainAttribute) (a : PlainAttribute) :
    Except Stop (List PlainAttribute × Bindings) :=
  match a.name.declares? with
  | none => .ok (as ++ [a], bs)
  | some short =>
    match bind bs short a.value with
    | .error reason => .error ⟨reason, start⟩
    | .ok bs => .ok (as, bs)

/-- The attributes of a tag with their values, and the bindings in force. -/
def plainAttributes (x : Context) (rules : List AttributeRule) (start rest : List Char)
    (raw : List RawAttribute) : Counting (List PlainAttribute × Bindings) := do
  let mut (as, bs, seen) := ([], x.bindings, ([] : List Qualified))
  for a in raw do
    if seen.contains a.name then throw ⟨.duplicateAttribute, a.place⟩
    (as, bs) ← addPlain start bs as (← plainAttribute x rules start rest a)
    seen := a.name :: seen
  for rule in rules do
    if let some value := rule.default? then
      if !seen.contains rule.name then
        (as, bs) ← addPlain start bs as ⟨rule.name, String.ofList (Text.hold value)⟩
  return (as, bs)

/-- Attributes with resolved names, each name once. -/
def resolveAll (bs : Bindings) (seen : List Name) :
    List PlainAttribute → Except Reason (List (Name × String))
  | [] => .ok []
  | a :: rest => do
    let n ← resolve bs "" a.name
    if seen.contains n then throw .duplicateAttribute
    return (n, a.value) :: (← resolveAll bs (n :: seen) rest)

/-- The name and the attributes of a tag, and the bindings inside its element. -/
def tagOf (x : Context) (start rest : List Char) (name : Qualified) (raw : List RawAttribute) :
    Counting (Name × List (Name × String) × Bindings) := do
  let (plain, bs) ← plainAttributes x (x.declared.rulesOf name.chars) start rest raw
  let resolved : Except Reason (Name × List (Name × String)) := do
    let attributes ← resolveAll bs [] plain
    return (← resolve bs ((bs.lookup "").getD "") name, attributes)
  match resolved with
  | .error reason => throw ⟨reason, start⟩
  | .ok (n, attributes) => return (n, attributes, bs)

/-! ## Content -/

/-- A piece of content. -/
inductive Piece where
  | chars (cs : List Char)
  | child (e : Element)

/-- The text in front of the first child, and the children with the text after each. -/
def assemble : List Piece → List Char × List (Element × String)
  | [] => ([], [])
  | .chars cs :: rest => (cs ++ (assemble rest).1, (assemble rest).2)
  | .child e :: rest =>
    let (text, children) := assemble rest
    ([], (e, String.ofList (Text.hold text)) :: children)

/-- A character of text that needs no attention. -/
def Context.isPlain (x : Context) (c : Char) : Bool :=
  c != '<' && c != '&' && c != ']' && (x.isInner || c != '\r') && isAllowed c

mutual

/-- The content of an element up to its end tag, or of an entity up to its end. The bound is on the
number of pieces read one after or inside the other. -/
def contentAt (x : Context) : Nat → List Char → Counting (List Piece × List Char)
  | 0, cs => throw ⟨.noElement, cs⟩
  | bound + 1, cs =>
    let go (piece : Piece) (rest : List Char) : Counting (List Piece × List Char) := do
      let (pieces, rest) ← contentAt x bound rest
      return (piece :: pieces, rest)
    let stop (reason : Reason) (rest : List Char) : Counting (List Piece × List Char) :=
      throw ⟨reason, rest⟩
    match cs with
    | [] =>
      if x.active.isEmpty then stop .noElement []
      else if x.outermost then pure ([], []) else stop .asynchronousEntity []
    | '<' :: '/' :: _ =>
      if x.outermost && !x.active.isEmpty then stop .asynchronousEntity cs else pure ([], cs)
    | '<' :: '!' :: '-' :: rest =>
      match rest with
      | [] => unclosed cs
      | '-' :: rest => do contentAt x bound (← commentAt cs rest)
      | _ => misplaced rest
    | '<' :: '!' :: '[' :: rest => do
      let rest ← sectionOpeningAt cs rest
      let (text, rest) ← sectionAt x.isInner rest
      go (.chars text) rest
    | '<' :: '!' :: rest => if rest.isEmpty then unclosed cs else misplaced rest
    | '<' :: '?' :: rest => do
      let (isDeclaration, rest) ← instructionAt cs rest
      if isDeclaration then stop .misplacedDeclaration cs else contentAt x bound rest
    | '<' :: rest => do
      let (e, rest) ← elementAt x bound cs rest
      go (.child e) rest
    | '&' :: rest => do
      match ← referenceAt cs rest with
      | (.code n, rest) =>
        match referenced? n with
        | some c => go (.chars [c]) rest
        | none => stop .invalidReference cs
      | (.entity name, rest) =>
        match predefined.lookup name, x.declared.entities.lookup name with
        | some c, _ => do
          modify (· + 1)
          go (.chars [c]) rest
        | none, some (.internal text) =>
          if x.active.contains name then stop .recursiveEntity cs
          else if x.declared.exceeds (x.limit rest) (← get) name text then stop .amplification cs
          else do
            modify (· + byteSize text)
            let inner := { x with
              active := name :: x.active, after := some (x.after.getD rest), outermost := true }
            let (pieces, _) ← located cs (contentAt inner bound text)
            let (more, rest) ← contentAt x bound rest
            return (pieces ++ more, rest)
        | none, some .external => stop (.skippedEntity name) cs
        | none, some .binary => stop .binaryEntity cs
        | none, none =>
          stop (if x.declared.isLenient then .skippedEntity name else .undefinedEntity) cs
    | ']' :: ']' :: '>' :: rest => misplaced ('>' :: rest)
    | ']' :: rest => go (.chars [']']) rest
    | c :: rest =>
      if x.isPlain c then go (.chars (cs.span x.isPlain).1) (cs.span x.isPlain).2
      else if c != '\r' then misplaced cs
      else match rest with
        | [] => stop .noElement cs
        | '\n' :: rest | rest => go (.chars ['\n']) rest

/-- An element from the name in its tag; `start` is where the tag starts. -/
def elementAt (x : Context) : Nat → List Char → List Char → Counting (Element × List Char)
  | 0, start, _ => throw ⟨.noElement, start⟩
  | bound + 1, start, cs => do
    let (name, rest) ← qualifiedAt start cs
    let ((raw, ended), rest) ← tagRestAt start (cs.length + 1) rest
    let (n, attributes, bindings) ← tagOf x start rest name raw
    if ended then return (.node n attributes "" [], rest)
    let (pieces, closing) ← contentAt { x with bindings, outermost := false } bound rest
    let (text, children) := assemble pieces
    -- The name of the end tag stands after the two characters that open it.
    let place := closing.drop 2
    let (label, rest) ← endTagAt closing place
    if label != name.chars then throw ⟨.mismatchedTag, place⟩
    return (.node n attributes (String.ofList (Text.hold text)) children, rest)

end

/-! ## Documents -/

/-- What may stand after the outermost element: white space, comments, instructions. -/
def epilogAt : Nat → List Char → Except Stop Unit
  | 0, cs => .error ⟨.junk, cs⟩
  | _, [] => .ok ()
  | bound + 1, cs => do
    let (token, rest) ← declTokenAt cs
    match token with
    | .space | .comment | .instruction => epilogAt bound rest
    | _ => throw ⟨.junk, cs⟩

/-- Reads the characters of a document. -/
def documentAt (cs : List Char) : Except Stop Element := do
  let body := match cs with
    | '\uFEFF' :: rest => rest
    | cs => cs
  let (declared, rest) ← prologAt (cs.length + 1) (.ofSize (byteSize cs)) true false body
  let x : Context :=
    { declared, bindings := [("xml", Element.xmlSpace)], active := [], after := none
      outermost := true }
  let bound := (cs.length + 2) * (cs.length + 2)
  let ((e, rest), _) ← elementAt x bound rest (rest.drop 1) declared.spent
  epilogAt (rest.length + 1) rest
  return e

/-- The line, from one, and the column, from zero, after some characters. -/
def position (line column : Nat) : List Char → Nat × Nat
  | [] => (line, column)
  | '\r' :: '\n' :: rest => position (line + 1) 0 rest
  | c :: rest =>
    if c = '\n' ∨ c = '\r' then position (line + 1) 0 rest else position line (column + 1) rest

/-- Why and where a text is no document. -/
inductive Error where
  | malformed (reason : Reason) (line column : Nat)
  | unencodable (e : Utf8.EncodeError)
  deriving Repr, DecidableEq

/-- Reads a text as a document. -/
def read (s : String) : Except Error Element :=
  match Utf8.encode? s with
  | .error e => .error (.unencodable e)
  | .ok _ =>
    -- Without surrogates the code points are all characters.
    let cs := (Text.units s.toList).map Char.ofNat
    match documentAt cs with
    | .ok e => .ok e
    | .error stop =>
      let (line, column) := position 1 0 (cs.take (cs.length - stop.rest.length))
      .error (.malformed stop.reason line column)

/-- The flaw of a document in words. -/
def flawText (reason : Reason) (line column : Nat) : String :=
  reason.message ++ ": line " ++ toString line ++ ", column " ++ toString column

end Assay.Xml
