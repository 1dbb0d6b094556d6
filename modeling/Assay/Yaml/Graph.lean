import Assay.Yaml.Node

/-!
# The graph of a YAML text

Tokens are put together to a table of scalars, sequences and mappings. An alias stands for the node
that bears its anchor, which must have started before it. A text holds at most one document. Tokens
are looked at one after the other, so that an error in the text counts only if the structure of what
stands before it is sound.
-/

namespace Assay.Yaml

/-- The nodes of a document and the place of the outermost one. -/
structure Graph where
  nodes : Table
  root : Nat

namespace Graph

/-- What is known while nodes are put together: the tokens that are left, the handles of tags, the
nodes so far and the places of those that bear anchors. -/
structure State where
  stream : Stream
  handles : List (List Char × List Char)
  nodes : Table
  anchors : List (List Char × Nat)

/-- A step that puts nodes together. -/
abbrev Builder := StateT State (Except Error)

/-- Handles that every document has. -/
def defaultHandles : List (List Char × List Char) :=
  [(['!'], ['!']), (['!', '!'], "tag:yaml.org,2002:".toList)]

/-! ## Tokens -/

/-- The first token that is left. -/
def peek : Builder (Option Token) := do
  let stream := (← get).stream
  match stream.tokens, stream.failure with
  | t :: _, _ => return some t
  | [], some e => throw e
  | [], none => return none

/-- Passes the first token. -/
def skip : Builder Unit :=
  modify fun s => { s with stream := { s.stream with tokens := s.stream.tokens.drop 1 } }

/-- Whether the first token is a certain one. -/
def isAt (t : Token) : Builder Bool := return (← peek) == some t

/-- Whether the first token is one of some, or there is none. -/
def isAtAny (ts : List Token) : Builder Bool := return (← peek).all ts.contains

/-! ## Anchors, tags and nodes -/

/-- The whole name of a written tag. -/
def tagName (t : WrittenTag) : Builder String := do
  match t.handle with
  | none => return String.ofList t.suffix
  | some h =>
    match (← get).handles.lookup h with
    | some front => return String.ofList (front ++ t.suffix)
    | none => throw .malformed

/-- The anchor at the start of a node, if one stands here. -/
def anchorHere : Builder (Option (List Char)) := do
  match ← peek with
  | some (.anchor a) => skip; return some a
  | _ => return none

/-- The tag at the start of a node, if one stands here. -/
def tagHere : Builder (Option WrittenTag) := do
  match ← peek with
  | some (.tag t) => skip; return some t
  | _ => return none

/-- Anchor and tag before a node, in either order. -/
def properties : Builder (Option (List Char) × Option String) := do
  let anchor ← anchorHere
  let tag ← tagHere
  let anchor ← if anchor.isNone && tag.isSome then anchorHere else pure anchor
  match tag with
  | some t => return (anchor, some (← tagName t))
  | none => return (anchor, none)

/-- What a scalar asks for. -/
def scalarWanted (plain : Bool) (text : List Char) : Option String → Wanted
  | none => .word (if plain then Word.kindOf text else .text)
  | some name => if name = "!" then .word (Word.kindOf text) else wantedOf name

/-- What a collection asks for that has a kind of its own. -/
def collectionWanted (own : Wanted) : Option String → Wanted
  | none => own
  | some name => if name = "!" then own else wantedOf name

/-- The place of a new node, which may bear an anchor; the anchor must be new. -/
def add (anchor : Option (List Char)) (n : Node) : Builder Nat := do
  let s ← get
  let place := s.nodes.size
  match anchor with
  | none => set { s with nodes := s.nodes.push n }
  | some a =>
    if (s.anchors.lookup a).isSome then throw .malformed
    set { s with nodes := s.nodes.push n, anchors := (a, place) :: s.anchors }
  return place

/-- Completes the node at a place. -/
def complete (place : Nat) (content : Content) : Builder Nat := do
  modify fun s =>
    { s with nodes := s.nodes.setIfInBounds place { s.nodes.nodeAt place with content } }
  return place

/-- A scalar without a tag in whose place nothing is written. -/
def absent : Builder Nat := add none Node.absent

mutual

/-- A node. `block` admits block collections, and `loose` admits list items that are not indented
more than the mapping around them. The bound is on the number of tokens. -/
def node (block loose : Bool) : Nat → Builder Nat
  | 0 => throw .malformed
  | bound + 1 => do
    if let some (.alias a) ← peek then
      skip
      match (← get).anchors.lookup a with
      | some place => return place
      | none => throw .malformed
    let (anchor, tag) ← properties
    let sequence := Node.mk (collectionWanted .sequence tag) (.sequence [])
    let mapping := Node.mk (collectionWanted .mapping tag) (.mapping [])
    match ← peek with
    | some (.scalar text plain) =>
      skip
      add anchor ⟨scalarWanted plain text tag, .scalar (String.ofList text)⟩
    | some .flowSequence =>
      let place ← add anchor sequence
      skip
      complete place (.sequence (← flowItems true bound))
    | some .flowMapping =>
      let place ← add anchor mapping
      skip
      complete place (.mapping (← flowEntries true bound))
    | other =>
      if other == some .entry && loose then
        let place ← add anchor sequence
        complete place (.sequence (← looseItems bound))
      else if other == some .blockSequence && block then
        let place ← add anchor sequence
        skip
        complete place (.sequence (← blockItems bound))
      else if other == some .blockMapping && block then
        let place ← add anchor mapping
        skip
        complete place (.mapping (← blockEntries bound))
      else if anchor.isSome || tag.isSome then
        add anchor ⟨scalarWanted true [] tag, .scalar ""⟩
      else throw .malformed

/-- A node, or the absent one if a token stands here that cannot start one. -/
def nodeUnless (ends : List Token) (block loose : Bool) : Nat → Builder Nat
  | 0 => throw .malformed
  | bound + 1 => do if ← isAtAny ends then absent else node block loose bound

/-- The value of a key, absent without a value mark. -/
def valueUnless (ends : List Token) (block loose : Bool) : Nat → Builder Nat
  | 0 => throw .malformed
  | bound + 1 => do
    if ← isAt .value then
      skip
      nodeUnless ends block loose bound
    else absent

/-- The items of a block sequence, and its end. -/
def blockItems : Nat → Builder (List Nat)
  | 0 => throw .malformed
  | bound + 1 => do
    match ← peek with
    | some .entry =>
      skip
      let item ← nodeUnless [.entry, .blockEnd] true false bound
      return item :: (← blockItems bound)
    | some .blockEnd => skip; return []
    | _ => throw .malformed

/-- The items of a sequence that is not indented; no token ends it. -/
def looseItems : Nat → Builder (List Nat)
  | 0 => throw .malformed
  | bound + 1 => do
    if ← isAt .entry then
      skip
      let item ← nodeUnless [.entry, .key, .value, .blockEnd] true false bound
      return item :: (← looseItems bound)
    else return []

/-- The entries of a block mapping, and its end. -/
def blockEntries : Nat → Builder (List (Nat × Nat))
  | 0 => throw .malformed
  | bound + 1 => do
    match ← peek with
    | some .key =>
      skip
      let k ← nodeUnless [.key, .value, .blockEnd] true true bound
      let v ← valueUnless [.key, .value, .blockEnd] true true bound
      return (k, v) :: (← blockEntries bound)
    | some .blockEnd => skip; return []
    | _ => throw .malformed

/-- The items of a sequence in brackets, and its end. An item may be a mapping of one entry. -/
def flowItems (first : Bool) : Nat → Builder (List Nat)
  | 0 => throw .malformed
  | bound + 1 => do
    if ← isAt .flowSequenceEnd then
      skip
      return []
    if !first then
      if ← isAt .flowEntry then skip else throw .malformed
    match ← peek with
    | some .flowSequenceEnd => skip; return []
    | some .key =>
      let place ← add none ⟨.mapping, .mapping []⟩
      skip
      let k ← nodeUnless [.value, .flowEntry, .flowSequenceEnd] false false bound
      let v ← valueUnless [.flowEntry, .flowSequenceEnd] false false bound
      let item ← complete place (.mapping [(k, v)])
      return item :: (← flowItems false bound)
    | _ =>
      let item ← node false false bound
      return item :: (← flowItems false bound)

/-- The entries of a mapping in brackets, and its end. -/
def flowEntries (first : Bool) : Nat → Builder (List (Nat × Nat))
  | 0 => throw .malformed
  | bound + 1 => do
    if ← isAt .flowMappingEnd then
      skip
      return []
    if !first then
      if ← isAt .flowEntry then skip else throw .malformed
    match ← peek with
    | some .flowMappingEnd => skip; return []
    | some .key =>
      skip
      let k ← nodeUnless [.value, .flowEntry, .flowMappingEnd] false false bound
      let v ← valueUnless [.flowEntry, .flowMappingEnd] false false bound
      return (k, v) :: (← flowEntries false bound)
    | _ =>
      let k ← node false false bound
      let v ← absent
      return (k, v) :: (← flowEntries false bound)

end

/-! ## Documents -/

/-- Directives before a document; the version must be 1, and nothing may be declared twice. The
bound is on the number of tokens. -/
def directives (version : Bool) (declared : List (List Char × List Char)) : Nat → Builder Unit
  | 0 => throw .malformed
  | bound + 1 => do
    match ← peek with
    | some (.directiveVersion major) =>
      skip
      if version || major ≠ 1 then throw .malformed
      directives true declared bound
    | some (.directiveTag h u) =>
      skip
      if (declared.lookup h).isSome then throw .malformed
      directives version ((h, u) :: declared) bound
    | some .directiveOther => skip; directives version declared bound
    | _ => modify fun s => { s with handles := declared ++ defaultHandles }

/-- Directives and the marker of the start of a document. -/
def documentStart (bound : Nat) : Builder Unit := do
  directives false [] bound
  if ← isAt .documentStart then skip else throw .malformed

/-- Whether a token starts or ends a document. -/
def isBoundary : Token → Bool
  | .directiveVersion _ | .directiveTag .. | .directiveOther | .documentStart | .documentEnd => true
  | _ => false

/-- The outermost node of a document. It may be absent after a marker. -/
def document (bound : Nat) (first : Token) : Builder Nat := do
  if isBoundary first && first != .documentEnd then
    documentStart bound
    if (← peek).all isBoundary then absent else node true false bound
  else node true false bound

/-- Passes the markers of the end of a document. The bound is on the number of tokens. -/
def documentEnds : Nat → Builder Unit
  | 0 => throw .malformed
  | bound + 1 => do
    if ← isAt .documentEnd then
      skip
      documentEnds bound

/-- The outermost node of a text, if there is one. A second document is an error, and so is anything
else behind the first. -/
def whole (bound : Nat) : Builder (Option Nat) := do
  match ← peek with
  | none => return none
  | some first =>
    let root ← document bound first
    documentEnds bound
    if (← peek).isSome then
      documentStart bound
      throw .malformed
    return some root

/-- More steps than the nodes of some tokens take: no token is passed on more than three times. -/
def tokenBound (ts : List Token) : Nat := 4 * ts.length + 4

/-- The graph of a stream of tokens, if it has a document. -/
def ofStream? (stream : Stream) : Except Error (Option Graph) := do
  let start : State := ⟨stream, defaultHandles, #[], []⟩
  let (root, s) ← (whole (tokenBound stream.tokens)).run start
  return root.map fun root => ⟨s.nodes, root⟩

end Graph

end Assay.Yaml
