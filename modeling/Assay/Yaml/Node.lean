import Assay.Yaml.Token
import Assay.Yaml.Word

/-!
# Nodes of a YAML text

The nodes of a document stand in one table and refer to each other by their places, so that an alias
is the place of the node that bears its anchor, even inside that node. Each node knows what its tag
asks for. A mapping may merge the entries of others; `Table.flatten` puts them in front of its own.
-/

namespace Assay.Yaml

/-- What a tag asks for. -/
inductive Wanted where
  | word (kind : WordKind)
  | sequence
  | mapping
  | set
  | pairs
  | unknown
  deriving Repr, DecidableEq

/-- The tags that have values. -/
def knownTags : List (String × Wanted) :=
  [("null", .word .null), ("bool", .word .truth), ("int", .word .int), ("float", .word .float),
   ("binary", .word .binary), ("timestamp", .word .timestamp), ("str", .word .text),
   ("seq", .sequence), ("map", .mapping), ("set", .set), ("omap", .pairs), ("pairs", .pairs),
   ("merge", .word .merge), ("value", .word .default)]

/-- What the name of a tag asks for. -/
def wantedOf (name : String) : Wanted :=
  let front := "tag:yaml.org,2002:".toList
  if front.isPrefixOf name.toList then
    (knownTags.lookup (String.ofList (name.toList.drop front.length))).getD .unknown
  else .unknown

/-- What a node holds: a text, or the places of other nodes. -/
inductive Content where
  | scalar (text : String)
  | sequence (items : List Nat)
  | mapping (entries : List (Nat × Nat))
  deriving Repr, DecidableEq

/-- A node. -/
structure Node where
  wanted : Wanted
  content : Content
  deriving Repr, DecidableEq

namespace Node

/-- The scalar that stands where nothing is written. -/
def absent : Node := ⟨.word .null, .scalar ""⟩

instance : Inhabited Node := ⟨absent⟩

/-- Whether a key merges the entries of its value. -/
def isMerge (n : Node) : Bool := n.wanted == .word .merge

/-- Whether a key stands for the scalar form of its mapping. -/
def isDefault (n : Node) : Bool := n.wanted == .word .default

/-- Whether a node is a mapping. -/
def isMapping (n : Node) : Bool :=
  match n.content with
  | .mapping _ => true
  | _ => false

end Node

/-- The nodes of a document by their places. -/
abbrev Table := Array Node

namespace Table

/-- The node at a place. -/
def nodeAt (t : Table) (n : Nat) : Node := t.getD n Node.absent

/-- The entries of the mapping at a place. -/
def entries (t : Table) (n : Nat) : List (Nat × Nat) :=
  match (t.nodeAt n).content with
  | .mapping es => es
  | _ => []

/-- The table with other entries in the mapping at a place. -/
def setEntries (t : Table) (n : Nat) (es : List (Nat × Nat)) : Table :=
  t.setIfInBounds n { t.nodeAt n with content := .mapping es }

/-- The table with the mark of the scalar form at a place turned into a text. -/
def unmark (t : Table) (n : Nat) : Table :=
  t.setIfInBounds n { t.nodeAt n with wanted := .word .text }

mutual

/-- Merges into the mapping at a place what its entries from number `index` on ask for; `merged` is
what entries before have asked for. Each merging entry is taken out before what it names is
flattened, so a mapping that merges itself is flattened once. The bound is on the number of steps. -/
def flattenFrom : Nat → Nat → Nat → List (Nat × Nat) → Table → Except Error Table
  | 0, _, _, _, _ => .error .malformed
  | bound + 1, n, index, merged, t =>
    match (t.entries n)[index]? with
    | none => .ok (if merged.isEmpty then t else t.setEntries n (merged ++ t.entries n))
    | some (k, v) =>
      if (t.nodeAt k).isMerge then do
        let t := t.setEntries n ((t.entries n).eraseIdx index)
        match (t.nodeAt v).content with
        | .mapping _ =>
          let t ← flattenFrom bound v 0 [] t
          flattenFrom bound n index (merged ++ t.entries v) t
        | .sequence items =>
          let (parts, t) ← flattenAll bound items t
          flattenFrom bound n index (merged ++ parts) t
        | .scalar _ => throw .malformed
      else if (t.nodeAt k).isDefault then flattenFrom bound n (index + 1) merged (t.unmark k)
      else flattenFrom bound n (index + 1) merged t

/-- Flattens mappings in order. Their entries come in reverse order: those of an earlier mapping
override those of a later one. -/
def flattenAll : Nat → List Nat → Table → Except Error (List (Nat × Nat) × Table)
  | 0, _, _ => .error .malformed
  | _, [], t => .ok ([], t)
  | bound + 1, n :: rest, t => do
    if !(t.nodeAt n).isMapping then throw .malformed
    let t ← flattenFrom bound n 0 [] t
    let own := t.entries n
    let (others, t) ← flattenAll bound rest t
    return (others ++ own, t)

end

/-- More steps than the merging of any text takes that can be held. -/
def mergeBound : Nat := twoTo 62

/-- The table with merged entries in front of those of the mapping at a place. -/
def flatten (t : Table) (n : Nat) : Except Error Table := flattenFrom mergeBound n 0 [] t

/-- The scalar form of the node at a place: its text, or that of the value of the key that marks it.
The bound is on the number of nodes. -/
def scalarForm (t : Table) : Nat → Nat → Except Error String
  | 0, _ => .error .malformed
  | bound + 1, n =>
    match (t.nodeAt n).content with
    | .scalar text => .ok text
    | .sequence _ => .error .malformed
    | .mapping es =>
      match es.find? fun (k, _) => (t.nodeAt k).isDefault with
      | some (_, v) => scalarForm t bound v
      | none => .error .malformed

end Table

end Assay.Yaml
