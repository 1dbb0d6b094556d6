import Assay.Xml.Token

/-!
# Entities and what replaces them

A document type declares entities, which stand for text, and what values attributes have by default.
A reference is replaced where it stands, and whatever is wrong with the replacement is reported
there. A short document may ask for a very long text, so the size of what replaces references is
counted: beyond a free amount it may be no more than a fixed multiple of what has been read.
-/

namespace Assay.Xml

/-- What a declared entity stands for. -/
inductive Entity where
  | internal (text : List Char)
  /-- Text that is kept elsewhere. -/
  | external
  /-- Something that is no text. -/
  | binary
  deriving Repr, DecidableEq

/-- What a document type says about an attribute. -/
structure AttributeRule where
  name : Qualified
  /-- Whether white space in a value does no more than part its words. -/
  isWords : Bool
  default? : Option (List Char)
  deriving Repr

/-- What a prolog declares. -/
structure Declared where
  entities : List (String × Entity)
  /-- The rules for attributes, each with the name of its element as it stands in tags. -/
  rules : List (List Char × AttributeRule)
  /-- Whether there may be declarations where this reader does not look. -/
  isOpen : Bool
  standalone : Bool
  /-- Whether declarations still count; they do not after others that were not looked at. -/
  isRead : Bool
  /-- The size of the document. -/
  size : Nat
  /-- The size of what has replaced references so far. -/
  spent : Nat
  deriving Repr

/-- What is declared before a document of a size is read. -/
def Declared.ofSize (size : Nat) : Declared :=
  { entities := [], rules := [], isOpen := false, standalone := false, isRead := true, size
    spent := 0 }

/-- Whether an entity that is not declared may still have a meaning. -/
def Declared.isLenient (d : Declared) : Bool := d.isOpen && !d.standalone

/-- What is declared, after a place where there may be declarations that are not looked at. -/
def Declared.skipped (d : Declared) : Declared :=
  { d with isOpen := true, isRead := d.standalone }

/-- A declaration with one more entity, if declarations count; the first declaration of a name is
the one that does. -/
def Declared.addEntity (d : Declared) (name : List Char) (e : Entity) : Declared :=
  let key := String.ofList name
  if !d.isRead || (d.entities.lookup key).isSome then d
  else { d with entities := d.entities ++ [(key, e)] }

/-- The rules for the attributes of an element. -/
def Declared.rulesOf (d : Declared) (element : List Char) : List AttributeRule :=
  (d.rules.filter (·.1 == element)).map (·.2)

/-- A declaration with one more rule; the first rule for an attribute is the one that counts. -/
def Declared.addRule (d : Declared) (element : List Char) (rule : AttributeRule) : Declared :=
  if (d.rulesOf element).any (·.name == rule.name) then d
  else { d with rules := d.rules ++ [(element, rule)] }

/-! ## The size of replacements -/

/-- The number of bytes of some characters. -/
def byteSize (cs : List Char) : Nat := cs.foldl (fun n c => n + c.utf8Size) 0

/-- What a document and its replacements may come to in any case. -/
def freeSize : Nat := 8 * 1024 * 1024

/-- What a document and its replacements may come to beyond that, for each byte read. -/
def amplification : Nat := 100

/-- What the size of replacements is held against: the size of the document, and the part of it that
has not been read. -/
structure Limit where
  size : Nat
  unread : List Char

/-- Whether replacements of a size are within the limit. -/
def Limit.admits (l : Limit) (spent : Nat) : Bool :=
  -- Most documents are small, and then what has been read need not be measured.
  l.size + spent < freeSize ||
    let read := l.size - byteSize l.unread
    read + spent < freeSize || read + spent ≤ amplification * read

/-- What the references in a text add to its size, and the entities that it refers to, if the text
holds no markup. The bound is on the number of characters. -/
def outline? : Nat → List Char → Option (Nat × List String)
  | 0, _ => some (0, [])
  | _, [] => some (0, [])
  | _, '<' :: _ => none
  | _, ']' :: ']' :: '>' :: _ => none
  | bound + 1, '&' :: rest =>
    match referenceAt ('&' :: rest) rest with
    | .error _ => none
    | .ok (.code _, after) => outline? bound after
    | .ok (.entity name, after) => do
      let (n, names) ← outline? bound after
      if (predefined.lookup name).isSome then return (n + 1, names) else return (n, name :: names)
  | bound + 1, _ :: rest => outline? bound rest

/-- The size of what replaces an entity, if neither it nor an entity in it holds markup. The bound is
on the nesting; `known` are the sizes that were found before. -/
def weigh (entities : List (String × Entity)) :
    Nat → List (String × Option Nat) → String → Option Nat × List (String × Option Nat)
  | 0, known, _ => (none, known)
  | depth + 1, known, name =>
    match known.lookup name, entities.lookup name with
    | some weight, _ => (weight, known)
    | none, some (.internal text) =>
      match outline? (text.length + 1) text with
      | none => (none, (name, none) :: known)
      | some (extra, names) =>
        let (weight, known) := names.foldl (fun (sum, known) inner =>
          match sum with
          | none => (none, known)
          | some sum =>
            let (weight, known) := weigh entities depth known inner
            (weight.map (sum + ·), known)) (some (byteSize text + extra), known)
        (weight, (name, weight) :: known)
    | none, _ => (none, known)

/-- Whether the text of an entity goes beyond a limit, or is known to do so with all that replaces the
references in it. -/
def Declared.exceeds (d : Declared) (l : Limit) (spent : Nat) (name : String) (text : List Char) :
    Bool :=
  let weight := (weigh d.entities (d.entities.length + 1) [] name).1
  !l.admits (spent + weight.getD (byteSize text))

/-! ## Values of entities -/

/-- A flaw in a value as a flaw of a document: a piece that does not end does not belong. -/
def inValue (e : Stop) : Stop :=
  match e.reason with
  | .unclosedToken => ⟨.invalidToken, e.rest⟩
  | _ => e

/-- The characters of an entity's value: numbered references are replaced, references to other
entities are kept. Failure gives the reason and the place of the flaw within the value. -/
def entityText : Nat → List Char → Except Stop (List Char)
  | 0, _ => .ok []
  | _, [] => .ok []
  | bound + 1, '&' :: rest =>
    match referenceAt ('&' :: rest) rest with
    | .error e => .error (inValue e)
    | .ok (.code n, after) =>
      match referenced? n with
      | some c => do return c :: (← entityText bound after)
      | none => .error ⟨.invalidReference, '&' :: rest⟩
    | .ok (.entity _, after) => do
      return '&' :: rest.take (rest.length - after.length) ++ (← entityText bound after)
  | _ + 1, '%' :: rest =>
    match percentAt ('%' :: rest) rest with
    | .error e => .error (inValue e)
    | .ok (.parameter, _) => .error ⟨.parameterReference, '%' :: rest⟩
    | .ok _ => misplaced rest
  | bound + 1, '\r' :: '\n' :: rest => do return '\n' :: (← entityText bound rest)
  | bound + 1, c :: rest => do
    return (if c = '\r' then '\n' else c) :: (← entityText bound rest)

/-! ## Values of attributes -/

/-- What is wrong with an attribute's value; the place is unknown for what entities contribute. -/
structure ValueStop where
  reason : Reason
  rest : Option (List Char)

/-- How an attribute's value is read: what is declared, the limit on replacements, and whether white
space does no more than part words. -/
structure ValueRule where
  declared : Declared
  limit : Limit
  isWords : Bool

/-- A value, in reverse, after white space: among words a space is put only between two of them. -/
def ValueRule.addSpace (r : ValueRule) (value : List Char) : List Char :=
  if r.isWords && (value.isEmpty || value.head? == some ' ') then value else ' ' :: value

/-- A value, in reverse, after a numbered reference, which among words counts as white space if it
gives a space. -/
def ValueRule.addReferenced (r : ValueRule) (c : Char) (value : List Char) : List Char :=
  if c = ' ' then r.addSpace value else c :: value

/-- Reads an attribute's value, with references replaced and white space made spaces, onto what has
been read of it in reverse and the size of the replacements so far. `isInner` tells that the text is
that of an entity, in which the ends of lines are unified already; `active` are the entities that are
being replaced. The first bound is on their nesting, the second on the number of characters. -/
def valueText (r : ValueRule) (isInner : Bool) (active : List String) :
    Nat → Nat → List Char × Nat → List Char → Except ValueStop (List Char × Nat)
  | 0, _, done, _ => .ok done
  | _, 0, done, _ => .ok done
  | _, _, done, [] => .ok done
  | depth + 1, bound + 1, (value, spent), '&' :: rest =>
    match referenceAt ('&' :: rest) rest with
    | .error e => .error ⟨(inValue e).reason, some e.rest⟩
    | .ok (.code n, after) =>
      match referenced? n with
      | none => .error ⟨.invalidReference, some ('&' :: rest)⟩
      | some c => valueText r isInner active (depth + 1) bound (r.addReferenced c value, spent) after
    | .ok (.entity name, after) =>
      match predefined.lookup name, r.declared.entities.lookup name with
      | some c, _ => valueText r isInner active (depth + 1) bound (c :: value, spent + 1) after
      | none, none =>
        if r.declared.isLenient then valueText r isInner active (depth + 1) bound (value, spent) after
        else .error ⟨.undefinedEntity, none⟩
      | none, some .external => .error ⟨.externalInAttribute, some ('&' :: rest)⟩
      | none, some .binary => .error ⟨.binaryEntity, some ('&' :: rest)⟩
      | none, some (.internal text) =>
        if active.contains name then .error ⟨.recursiveEntity, none⟩
        else if r.declared.exceeds r.limit spent name text then .error ⟨.amplification, none⟩
        else
          let spent := spent + byteSize text
          match valueText r true (name :: active) depth (text.length + 1) (value, spent) text with
          | .error e => .error ⟨e.reason, none⟩
          | .ok done => valueText r isInner active (depth + 1) bound done after
  | _, _, _, '<' :: rest => .error ⟨.invalidToken, some ('<' :: rest)⟩
  | depth + 1, bound + 1, (value, spent), '\r' :: '\n' :: rest =>
    valueText r isInner active (depth + 1) bound (r.addSpace value, spent)
      (if isInner then '\n' :: rest else rest)
  | depth + 1, bound + 1, (value, spent), c :: rest =>
    valueText r isInner active (depth + 1) bound
      (if isSpace c then r.addSpace value else c :: value, spent) rest
termination_by depth bound => (depth, bound)

/-- An attribute's value, and the size of the replacements after it. -/
def attributeText (r : ValueRule) (isInner : Bool) (active : List String) (spent : Nat) (cs : List Char) :
    Except ValueStop (List Char × Nat) := do
  let depth := r.declared.entities.length + 1
  let (value, spent) ← valueText r isInner active depth (cs.length + 1) ([], spent) cs
  -- Words end with the last of them.
  return ((if r.isWords && value.head? == some ' ' then value.drop 1 else value).reverse, spent)

end Assay.Xml
