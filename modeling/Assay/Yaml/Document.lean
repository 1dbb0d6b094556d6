import Assay.Yaml.Graph

/-!
# Values of a YAML text

A node becomes a value by its tag, or by its text or kind if it has none. Only the tags of the YAML
type repository have values, and only a scalar can be a key. A scalar has its value at once; a
collection first gets an empty cell and waits until all collections met before it are filled, so that
it may contain itself and so that the errors of outer nodes come before those of inner ones.
-/

namespace Assay.Yaml

/-- The value of a word of a kind. -/
def wordValue (kind : WordKind) (text : String) : Except Error Value :=
  match kind with
  | .null => .ok .null
  | .truth => Word.truthOf text.toList
  | .int => Word.intOf text
  | .float => Word.floatOf text
  | .timestamp => Word.timestampOf text.toList
  | .binary => Word.bytesOf text.toList
  | .text => .ok (.text text)
  | .merge | .default | .indicator => .error .malformed

/-- What a node stands for; collections hold the places of other nodes. -/
inductive Cell where
  /-- The value of a scalar. Two keys without a numerical value are the same only if they have the
  same origin. -/
  | leaf (v : Value) (origin : Nat)
  | items (places : List Nat)
  | entries (es : List (Value × Nat))
  | members (keys : List Value)
  | pairs (es : List (Nat × Nat))

instance : Inhabited Cell := ⟨.items []⟩

namespace Filling

/-- What is known while cells are filled: the nodes, the cells of those met so far, and the places of
the collections met so far, in order. -/
structure State where
  nodes : Table
  cells : Array (Option Cell)
  waiting : Array Nat

/-- A step that fills cells. -/
abbrev Filler := StateT State (Except Error)

/-- Sets the cell of a node. -/
def setCell (n : Nat) (c : Cell) : Filler Unit :=
  modify fun s => { s with cells := s.cells.setIfInBounds n (some c) }

/-- The cell of a node that has been met. -/
def cellOf (n : Nat) : Filler Cell := return ((← get).cells.getD n none).getD default

/-- Gives a collection an empty cell and lets it wait. -/
def await (n : Nat) (empty : Cell) : Filler Unit := do
  setCell n empty
  modify fun s => { s with waiting := s.waiting.push n }

/-- The cell of a scalar. -/
def leafOf (t : Table) (n : Nat) (kind : WordKind) : Except Error Cell := do
  let text ← t.scalarForm (t.size + 1) n
  if kind == .timestamp && (t.nodeAt n).isMapping then throw .notText
  let v ← wordValue kind text
  -- The word for no number has one origin wherever it stands.
  return .leaf v (if Word.isUndefinedWord text then t.size else n)

/-- Meets a node: a scalar gets its value, and a collection waits. -/
def meet (n : Nat) : Filler Unit := do
  let s ← get
  if (s.cells.getD n none).isSome then return
  match (s.nodes.nodeAt n).wanted with
  | .word kind => setCell n (← leafOf s.nodes n kind)
  | .sequence => await n (.items [])
  | .mapping => await n (.entries [])
  | .set => await n (.members [])
  | .pairs => await n (.pairs [])
  | .unknown => throw .malformed

/-- Whether two keys are the same; one without a numerical value is the same as those of its
origin. -/
def sameKey (a : Value) (i : Nat) (b : Value) (j : Nat) : Bool :=
  match a, b with
  | .float x, .float y =>
    if Binary64.isUndefined x && Binary64.isUndefined y then i == j else a.same b
  | _, _ => a.same b

/-- Entries with one more: an equal key keeps its place and gets the new value. -/
def insertKey (k : Value) (origin v : Nat) : List (Value × Nat × Nat) → List (Value × Nat × Nat)
  | [] => [(k, origin, v)]
  | (k', o', v') :: rest =>
    if sameKey k' o' k origin then (k', o', v) :: rest
    else (k', o', v') :: insertKey k origin v rest

/-- The entries of a mapping, merged ones first. -/
def entriesOf (n : Nat) : Filler (List (Value × Nat)) := do
  let s ← get
  if !(s.nodes.nodeAt n).isMapping then throw .malformed
  let nodes ← s.nodes.flatten n
  set { s with nodes }
  let found ← (nodes.entries n).foldlM (fun found (k, v) => do
    meet k
    match ← cellOf k with
    | .leaf key origin =>
      meet v
      return insertKey key origin v found
    | _ => throw .malformed) []
  return found.map fun (k, _, v) => (k, v)

/-- The pair that the mapping of one entry at a place stands for. -/
def pairOf (n : Nat) : Filler (Nat × Nat) := do
  match ((← get).nodes.nodeAt n).content with
  | .mapping [(k, v)] =>
    meet k
    meet v
    return (k, v)
  | _ => throw .malformed

/-- The places of the items of a sequence. -/
def itemsOf (n : Nat) : Filler (List Nat) := do
  match ((← get).nodes.nodeAt n).content with
  | .sequence places => return places
  | _ => throw .malformed

/-- Fills the cell of a collection. -/
def fill (n : Nat) : Filler Unit := do
  match ← cellOf n with
  | .leaf .. => return
  | .items _ =>
    let places ← itemsOf n
    places.forM meet
    setCell n (.items places)
  | .entries _ => setCell n (.entries (← entriesOf n))
  | .members _ => setCell n (.members ((← entriesOf n).map (·.1)))
  | .pairs _ => setCell n (.pairs (← (← itemsOf n).mapM pairOf))

/-- Fills all cells that wait, the first of which has number `next`. The bound is on the number of
nodes. -/
def fillFrom (next : Nat) : Nat → Filler Unit
  | 0 => return
  | bound + 1 => do
    match (← get).waiting[next]? with
    | none => return
    | some n =>
      fill n
      fillFrom (next + 1) bound

/-- The cells of the nodes of a graph. -/
def cellsOf (g : Graph) : Except Error (Array Cell) := do
  let start : State := ⟨g.nodes, Array.replicate g.nodes.size none, #[]⟩
  let ((), s) ← (do meet g.root; fillFrom 0 (g.nodes.size + 1) : Filler Unit).run start
  return s.cells.map (·.getD default)

end Filling

/-! ## Cells as values -/

namespace Cell

/-- The value of the cell at a place, unless a loop is met on the way; values that have been found
are kept. The bound is on the depth: without a loop no cell is inside itself. -/
def treeOf? (cells : Array Cell) : Nat → Nat → StateT (Array (Option Value)) Option Value
  | 0, _ => StateT.lift none
  | bound + 1, n => do
    if let some v := (← get).getD n none then return v
    let inner := treeOf? cells bound
    let v ← match cells.getD n default with
      | .leaf v _ => pure v
      | .items places => do pure (.list (← places.mapM inner))
      | .entries es => do pure (.map (← es.mapM fun (k, c) => do pure (k, ← inner c)))
      | .members keys => pure (.set keys)
      | .pairs es => do
        pure (.list (← es.mapM fun (k, c) => do pure (.tuple [← inner k, ← inner c])))
    modify fun known => known.setIfInBounds n (some v)
    return v

/-- A part of a cell: a scalar itself, or a reference. -/
def part (cells : Array Cell) (n : Nat) : Value :=
  match cells.getD n default with
  | .leaf v _ => v
  | _ => .ref n

/-- A cell as a value that refers to cells. -/
def level (cells : Array Cell) : Cell → Value
  | .leaf v _ => v
  | .items places => .list (places.map (part cells))
  | .entries es => .map (es.map fun (k, c) => (k, part cells c))
  | .members keys => .set keys
  | .pairs es => .list (es.map fun (k, c) => .tuple [part cells k, part cells c])

/-- The value of the cell at a place. -/
def valueOf (cells : Array Cell) (n : Nat) : Value :=
  match (treeOf? cells (cells.size + 1) n).run (Array.replicate cells.size none) with
  | some (v, _) => v
  | none => .looped (cells.map (level cells)) (.ref n)

end Cell

/-- Reads a text as a value; a text without a document is null. -/
def read (s : String) : Except Error Value := do
  match ← Graph.ofStream? (.ofText s.toList) with
  | none => return .null
  | some g => return Cell.valueOf (← Filling.cellsOf g) g.root

end Assay.Yaml
