import Assay.Text.Quoted

/-!
# XML elements

An element has a name, attributes, the text before its first child, and its children, each with the
text after it. Names are pairs of a name space and a local name. An element is written with prefixes
of its own for the name spaces that occur in it, all declared in its outermost tag.
-/

namespace Assay.Xml

/-- A name within a name space; most names are in none. -/
structure Name where
  space : String
  label : String
  deriving Repr, DecidableEq, Inhabited

/-- A name without a name space. -/
def Name.plain (label : String) : Name := ⟨"", label⟩

/-- The name with its name space in braces. -/
def Name.toText (n : Name) : String :=
  if n.space = "" then n.label else "\x7b" ++ n.space ++ "\x7d" ++ n.label

/-- An element: name, attributes, leading text, and children with the text after each. -/
inductive Element where
  | node (name : Name) (attributes : List (Name × String)) (text : String)
      (children : List (Element × String))
  deriving Inhabited

namespace Element

/-- The name of an element. -/
def name : Element → Name
  | node n _ _ _ => n

/-- The attributes of an element. -/
def attributes : Element → List (Name × String)
  | node _ as _ _ => as

/-- The children of an element, each with the text after it. -/
def children : Element → List (Element × String)
  | node _ _ _ cs => cs

/-- Whether an element has a name that is in no name space. -/
def isNamed (e : Element) (label : String) : Bool := e.name == .plain label

/-- The value of an attribute that is in no name space. -/
def attribute? (e : Element) (label : String) : Option String := e.attributes.lookup (.plain label)

/-- The first child with a name. -/
def child? (e : Element) (label : String) : Option Element :=
  (e.children.find? (·.1.isNamed label)).map (·.1)

/-- An element as messages show it: its name and no place in memory. -/
def shown (e : Element) : String := "<Element " ++ Text.quoted e.name.toText ++ " at 0x0>"

/-! ## Writing -/

/-- A character of text. -/
def textChar : Char → List Char
  | '&' => "&amp;".toList
  | '<' => "&lt;".toList
  | '>' => "&gt;".toList
  | c => [c]

/-- A character of an attribute's value. -/
def attributeChar : Char → List Char
  | '"' => "&quot;".toList
  | '\r' => "&#13;".toList
  | '\n' => "&#10;".toList
  | '\t' => "&#09;".toList
  | c => textChar c

/-- Text as it is written. -/
def writtenText (s : String) : String := String.ofList (s.toList.flatMap textChar)

/-- An attribute's value as it is written. -/
def writtenValue (s : String) : String := String.ofList (s.toList.flatMap attributeChar)

/-- The name of the name space that a host keeps under a path. -/
def spaceOf (host path : String) : String := "http:" ++ "//" ++ host ++ "/" ++ path

/-- The host of the name spaces that belong to the standard of XML and its relatives. -/
def standardHost : String := "www.w3.org"

/-- The name space of the prefix `xml`, which needs no declaration. -/
def xmlSpace : String := spaceOf standardHost "XML/1998/namespace"

/-- Prefixes that are customary for some name spaces. -/
def customary : List (String × String) :=
  [(xmlSpace, "xml"), (spaceOf standardHost "1999/xhtml", "html"),
   (spaceOf standardHost "1999/02/22-rdf-syntax-ns#", "rdf"),
   (spaceOf "schemas.xmlsoap.org" "wsdl/", "wsdl"),
   (spaceOf standardHost "2001/XMLSchema", "xs"),
   (spaceOf standardHost "2001/XMLSchema-instance", "xsi"),
   (spaceOf "purl.org" "dc/elements/1.1/", "dc")]

mutual

/-- The names in an element, in the order of the text. -/
def names : Element → List Name
  | node n as _ cs => n :: as.map (·.1) ++ namesIn cs

/-- The names in some children. -/
def namesIn : List (Element × String) → List Name
  | [] => []
  | (e, _) :: rest => names e ++ namesIn rest

end

/-- Prefixes with one more for the name space of a name, unless it has one or needs none. -/
def addPrefix (known : List (String × String)) (n : Name) : List (String × String) :=
  if n.space = "" ∨ n.space = xmlSpace ∨ (known.lookup n.space).isSome then known
  else known ++ [(n.space, (customary.lookup n.space).getD ("ns" ++ toString known.length))]

/-- The name spaces in an element with their prefixes. -/
def prefixes (e : Element) : List (String × String) := e.names.foldl addPrefix []

/-- A name with its prefix. -/
def writtenName (known : List (String × String)) (n : Name) : String :=
  if n.space = "" then n.label
  else if n.space = xmlSpace then "xml:" ++ n.label
  else (known.lookup n.space).getD "" ++ ":" ++ n.label

/-- The declarations of prefixes, in the order of the prefixes. -/
def declarations (known : List (String × String)) : String :=
  String.join ((known.mergeSort fun a b => !decide (b.2 < a.2)).map fun (space, p) =>
    " xmlns:" ++ p ++ "=\"" ++ writtenValue space ++ "\"")

mutual

/-- An element as it is written, with declarations in its tag. -/
def write (known : List (String × String)) (declared : String) : Element → String
  | node n as text cs =>
    let tag := writtenName known n
    let attrs := String.join (as.map fun (k, v) =>
      " " ++ writtenName known k ++ "=\"" ++ writtenValue v ++ "\"")
    let opening := "<" ++ tag ++ declared ++ attrs
    if text = "" ∧ cs.isEmpty then opening ++ " />"
    else opening ++ ">" ++ writtenText text ++ writeChildren known cs ++ "</" ++ tag ++ ">"

/-- Children as they are written, each with the text after it. -/
def writeChildren (known : List (String × String)) : List (Element × String) → String
  | [] => ""
  | (e, tail) :: rest => write known "" e ++ writtenText tail ++ writeChildren known rest

end

/-- An element and the text after it as a text. -/
def toText (e : Element) (tail : String) : String :=
  let known := e.prefixes
  write known (declarations known) e ++ writtenText tail

end Element

end Assay.Xml
