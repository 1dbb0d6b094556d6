import Assay.Matching.Forest

/-!
# Components of the candidate graph

Defects and findings are numbered; an edge joins a defect with a finding that may match it. Two
numbers are in one component if a chain of edges connects them, that is if they are in one tree of
the forest of the edges. A component lists both kinds of numbers in ascending order, and components
stand in the order of their smallest defects.
-/

namespace Assay

/-- The defects and findings that chains of edges connect. -/
structure Component where
  defects : List Nat
  findings : List Nat
  deriving Repr, DecidableEq, Inhabited

namespace Component

/-- No items. -/
def empty : Component := ⟨[], []⟩

/-- A component with one more item behind the others of its kind. -/
def append (c : Component) : Vertex → Component
  | .defect n => { c with defects := c.defects ++ [n] }
  | .finding n => { c with findings := c.findings ++ [n] }

/-- Components by their roots, with an item added to that of its root. -/
def place (root v : Vertex) : List (Vertex × Component) → List (Vertex × Component)
  | [] => [(root, empty.append v)]
  | (r, c) :: rest => if r = root then (r, c.append v) :: rest else (r, c) :: place root v rest

/-- Components by their roots, with items of a forest added one after the other. -/
def gather : (f : Forest) → (vs : List Vertex) → (∀ v ∈ vs, v ∈ f.vertices) →
    List (Vertex × Component) → List (Vertex × Component)
  | _, [], _, groups => groups
  | f, v :: vs, h, groups =>
    let found := f.find v (h v (List.mem_cons_self ..))
    have h' : ∀ w ∈ vs, w ∈ found.2.vertices := fun w hw => by
      rw [Forest.vertices_find]
      exact h w (List.mem_cons_of_mem _ hw)
    gather found.2 vs h' (place found.1 v groups)

/-- The smallest defect of a component whose lists are in order. -/
def least (c : Component) : Nat := c.defects.headD 0

/-- The trees of a forest. -/
def ofForest (f : Forest) : List Component :=
  let groups := gather f (f.vertices.mergeSort (· ≤ ·)) (fun _ => List.mem_mergeSort.1) []
  (groups.map (·.2)).mergeSort fun a b => a.least ≤ b.least

/-- The components of a graph given by its edges. -/
def ofEdges (edges : List (Nat × Nat)) : List Component := ofForest (.ofEdges edges)

end Component

end Assay
