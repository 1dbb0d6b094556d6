import Assay.Xml.Entity

/-!
# The document type

A document type declares entities, elements, the attributes of elements, and notations. What it says
about entities and attributes is kept. Declarations of elements and notations only have to be well
formed.
-/

namespace Assay.Xml

/-! ## Identifiers of what is kept elsewhere -/

/-- Whether a character may stand in a public identifier. -/
def isPublicChar (c : Char) : Bool :=
  c.isAlphanum || " \r\n-'()+,./:=?;!*#@$_%".toList.contains c

/-- The rest after a public identifier. -/
def publicIdAt (cs : List Char) : Except Stop (List Char) := do
  let p ← nextAt cs
  match p.token with
  | .literal text after =>
    match text.dropWhile isPublicChar with
    | [] => return p.rest
    | bad => throw ⟨.publicId, bad ++ after⟩
  | _ => p.refuse

/-- The rest after the name of a place. -/
def systemIdAt (cs : List Char) : Except Stop (List Char) := do
  let p ← nextAt cs
  match p.token with
  | .literal .. => return p.rest
  | _ => p.refuse

/-- The rest after what identifies a text that is kept elsewhere, from its keyword on. -/
def externalIdAt (key : Placed) : Except Stop (List Char) := do
  if key.token = .name "SYSTEM".toList then systemIdAt key.rest
  else if key.token = .name "PUBLIC".toList then systemIdAt (← publicIdAt key.rest)
  else key.refuse

/-! ## Declarations -/

/-- Reads a value of an entity, if declarations count. -/
def entityValueOf (d : Declared) (text after : List Char) : Except Stop (List Char) :=
  if !d.isRead then .ok []
  else match entityText (text.length + 1) text with
    | .ok value => .ok value
    | .error e => .error ⟨e.reason, e.rest ++ after⟩

/-- Reads the declaration of an entity that holds declarations itself, from its name on. -/
def parameterEntityAt (d : Declared) (cs : List Char) : Except Stop (List Char) := do
  let (_, rest) ← wordAt cs
  let p ← nextAt rest
  match p.token with
  | .literal text after =>
    let _ ← entityValueOf d text after
    closeAt p.rest
  | _ => closeAt (← externalIdAt p)

/-- Reads the declaration of an entity. -/
def entityAt (d : Declared) (cs : List Char) : Except Stop (Declared × List Char) := do
  let p ← nextAt cs
  match p.token with
  | .percent => return (d, ← parameterEntityAt d p.rest)
  | .name n =>
    let q ← nextAt p.rest
    match q.token with
    | .literal text after =>
      let value ← entityValueOf d text after
      return (d.addEntity n (.internal value), ← closeAt q.rest)
    | _ =>
      let q ← nextAt (← externalIdAt q)
      if q.token = .close then return (d.addEntity n .external, q.rest)
      else if q.token = .name "NDATA".toList then
        let (_, rest) ← wordAt q.rest
        return (d.addEntity n .binary, ← closeAt rest)
      else q.refuse
  | _ => p.refuse

/-- Reads the declaration of a notation. -/
def notationAt (cs : List Char) : Except Stop (List Char) := do
  let (_, rest) ← wordAt cs
  let p ← nextAt rest
  if p.token = .name "PUBLIC".toList then
    let q ← nextAt (← publicIdAt p.rest)
    match q.token with
    | .close => return q.rest
    | .literal .. => closeAt q.rest
    | _ => q.refuse
  else closeAt (← externalIdAt p)

/-- The name that a token is, with or without a colon. -/
def DeclToken.qualified? : DeclToken → Option (List Char)
  | .name n | .qualified n => some n
  | _ => none

/-! ### Elements -/

/-- Reads the names beside text in what an element may hold, from after the first of them. The bound
is on their number. -/
def mixedAt : Nat → List Char → Except Stop (List Char)
  | 0, cs => .error ⟨.syntaxError, cs⟩
  | bound + 1, cs => do
    let p ← nextAt cs
    match p.token with
    | .closeGroup (some '*') => return p.rest
    | .bar =>
      let q ← nextAt p.rest
      if q.token.qualified?.isSome then mixedAt bound q.rest else q.refuse
    | _ => p.refuse

/-- Reads groups of elements. `open_` are the groups that have not ended, the innermost first, each
with the token between its parts; `isPart` tells that a part is due. The bound is on the number of
tokens. -/
def groupAt : Nat → List (Option DeclToken) → Bool → List Char → Except Stop (List Char)
  | 0, _, _, cs => .error ⟨.syntaxError, cs⟩
  | bound + 1, open_, isPart, cs => do
    let p ← nextAt cs
    match isPart, p.token, open_ with
    | true, .openGroup, _ => groupAt bound (none :: open_) true p.rest
    | true, .name _, _ | true, .qualified _, _ | true, .counted _, _ =>
      groupAt bound open_ false p.rest
    | false, .closeGroup _, _ :: [] => return p.rest
    | false, .closeGroup _, _ :: outer => groupAt bound outer false p.rest
    | false, .comma, between :: outer | false, .bar, between :: outer =>
      if between.all (· == p.token) then groupAt bound (some p.token :: outer) true p.rest
      else p.refuse
    | _, _, _ => p.refuse

/-- Reads the declaration of an element. -/
def elementDeclarationAt (cs : List Char) : Except Stop (List Char) := do
  let p ← nextAt cs
  if p.token.qualified?.isNone then p.refuse else
  let q ← nextAt p.rest
  match q.token with
  | .name n =>
    if n = "EMPTY".toList ∨ n = "ANY".toList then closeAt q.rest else q.refuse
  | .openGroup =>
    let first ← nextAt q.rest
    if first.token = .keyword "PCDATA".toList then
      let second ← nextAt first.rest
      if second.token = .closeGroup none then closeAt second.rest
      else closeAt (← mixedAt (cs.length + 1) first.rest)
    else closeAt (← groupAt (cs.length + 1) [none] true q.rest)
  | _ => q.refuse

/-! ### Attributes -/

/-- The types of attributes whose values are words. -/
def wordTypes : List String :=
  ["ID", "IDREF", "IDREFS", "ENTITY", "ENTITIES", "NMTOKEN", "NMTOKENS"]

/-- Reads the words that an attribute may have as its value, from after the opening of their group.
The bound is on their number. -/
def choicesAt (isChoice : DeclToken → Bool) : Nat → List Char → Except Stop (List Char)
  | 0, cs => .error ⟨.syntaxError, cs⟩
  | bound + 1, cs => do
    let p ← nextAt cs
    if !isChoice p.token then p.refuse else
    let q ← nextAt p.rest
    match q.token with
    | .bar => choicesAt isChoice bound q.rest
    | .closeGroup none => return q.rest
    | _ => q.refuse

/-- Whether a token is a word that an attribute may have as its value. -/
def DeclToken.isChoice : DeclToken → Bool
  | .name _ | .qualified _ | .word _ => true
  | _ => false

/-- Whether a token is the name of a notation. -/
def DeclToken.isNotation : DeclToken → Bool
  | .name _ => true
  | _ => false

/-- Reads the type of an attribute: whether its values are words. -/
def attributeTypeAt (cs : List Char) : Except Stop (Bool × List Char) := do
  let p ← nextAt cs
  match p.token with
  | .name n =>
    let type := String.ofList n
    if type = "CDATA" then return (false, p.rest)
    else if wordTypes.contains type then return (true, p.rest)
    else if type = "NOTATION" then
      let q ← nextAt p.rest
      if q.token = .openGroup then
        return (true, ← choicesAt DeclToken.isNotation (cs.length + 1) q.rest)
      else q.refuse
    else p.refuse
  | .openGroup => return (true, ← choicesAt DeclToken.isChoice (cs.length + 1) p.rest)
  | _ => p.refuse

/-- Reads what an attribute is by default, which may be nothing: a token that is a literal, if there
is one, and the rest. -/
def defaultAt (cs : List Char) : Except Stop (Option Placed × List Char) := do
  let p ← nextAt cs
  match p.token with
  | .literal .. => return (some p, p.rest)
  | .keyword key =>
    if key = "IMPLIED".toList ∨ key = "REQUIRED".toList then return (none, p.rest)
    else if key = "FIXED".toList then
      let q ← nextAt p.rest
      match q.token with
      | .literal .. => return (some q, q.rest)
      | _ => q.refuse
    else p.refuse
  | _ => p.refuse

/-- What is declared, with one more attribute of an element, if declarations count. -/
def Declared.addAttribute (d : Declared) (element name : List Char) (isWords : Bool)
    (default? : Option Placed) : Except Stop Declared :=
  if !d.isRead then .ok d
  else
    let rule (value : Option (List Char)) : AttributeRule := ⟨.ofChars name, isWords, value⟩
    match default? with
    | some ⟨.literal text after, place, rest⟩ =>
      match attributeText ⟨d, ⟨d.size, rest⟩, isWords⟩ false [] d.spent text with
      | .error e => .error ⟨e.reason, (e.rest.map (· ++ after)).getD place⟩
      | .ok (value, spent) => .ok { d.addRule element (rule (some value)) with spent }
    | _ => .ok (d.addRule element (rule none))

/-- Reads the attributes of an element. The bound is on their number. -/
def attributesAt (element : List Char) : Nat → Declared → List Char →
    Except Stop (Declared × List Char)
  | 0, _, cs => .error ⟨.syntaxError, cs⟩
  | bound + 1, d, cs => do
    let p ← nextAt cs
    if p.token = .close then return (d, p.rest)
    match p.token.qualified? with
    | none => p.refuse
    | some name =>
      let (isWords, rest) ← attributeTypeAt p.rest
      let (default?, rest) ← defaultAt rest
      attributesAt element bound (← d.addAttribute element name isWords default?) rest

/-- Reads the declaration of the attributes of an element. -/
def attributeListAt (d : Declared) (cs : List Char) : Except Stop (Declared × List Char) := do
  let p ← nextAt cs
  match p.token.qualified? with
  | some element => attributesAt element (cs.length + 1) d p.rest
  | none => p.refuse

/-! ## The whole -/

/-- Reads the declarations of a document type up to its closing bracket. The bound is on their
number. -/
def declarationsAt : Nat → Declared → List Char → Except Stop (Declared × List Char)
  | 0, _, cs => .error ⟨.syntaxError, cs⟩
  | bound + 1, d, cs => do
    let p ← nextAt cs
    match p.token with
    | .comment | .instruction => declarationsAt bound d p.rest
    | .parameter => declarationsAt bound d.skipped p.rest
    | .closeBracket => return (d, p.rest)
    | .opening name =>
      let (d, rest) ← match String.ofList name with
        | "ENTITY" => entityAt d p.rest
        | "ATTLIST" => attributeListAt d p.rest
        | "ELEMENT" => pure (d, ← elementDeclarationAt p.rest)
        | "NOTATION" => pure (d, ← notationAt p.rest)
        | _ => p.refuse
      declarationsAt bound d rest
    | _ => p.refuse

/-- Reads a document type from its name on. -/
def documentTypeAt (d : Declared) (cs : List Char) : Except Stop (Declared × List Char) := do
  let name ← nextAt cs
  if name.token.qualified?.isNone then name.refuse else
  let key ← nextAt name.rest
  let (d, p) ← match key.token with
    | .name _ => pure ({ d with isOpen := true }, ← nextAt (← externalIdAt key))
    | _ => pure (d, key)
  match p.token with
  | .close => return (d, p.rest)
  | .openBracket =>
    let (d, rest) ← declarationsAt (cs.length + 1) d p.rest
    return (d, ← closeAt rest)
  | _ => p.refuse

end Assay.Xml
