/-!
# Assignments of greatest weight

Given a matrix of weights, choose pairs of a row and a column, none used twice, with the greatest
total weight; an entry that is not positive is no pair at all. Rows are placed one after the other.
Placing a row searches the cheapest way to free a column for it, where a pair costs what it lacks
to the greatest weight. Potentials of rows and columns are kept so that no pair costs less than its
two potentials together and every chosen pair costs exactly that, which makes the choice cheapest.

Inside the search rows and columns are numbered from one. Column zero holds the row that is being
placed, and row zero means that a column is free.
-/

namespace Assay.Assignment

/-- The values of a function below a bound, as an array. -/
def tabulate (n : Nat) (f : Nat → α) : Array α := Array.ofFn (n := n) fun i => f i.val

theorem getD_tabulate (n : Nat) (f : Nat → α) (d : α) (i : Nat) :
    (tabulate n f).getD i d = if i < n then f i else d := by
  unfold tabulate
  by_cases h : i < n <;> simp [Array.getD, h]

/-- The pairs chosen so far and the potentials that prove them cheapest. -/
structure State where
  rowPotential : Array Int
  columnPotential : Array Int
  /-- The row of each column, zero if the column is free. -/
  rowOf : Array Nat
  /-- The column from which the last search reached each column. -/
  cameFrom : Array Nat
  deriving Repr

/-- A search for a free column. -/
structure Search where
  state : State
  /-- What it takes to reach each column, if the search has seen a way. -/
  slack : Array (Option Int)
  /-- The columns that the search has reached. -/
  reached : Array Bool
  /-- The column reached last. -/
  column : Nat
  deriving Repr

namespace Search

/-- Marks the current column as reached. -/
def mark (m : Nat) (s : Search) : Search :=
  { s with reached := tabulate (m + 1) fun j => j == s.column || s.reached.getD j false }

/-- The row of the current column. -/
def row (s : Search) : Nat := s.state.rowOf.getD s.column 0

/-- What it takes to reach a column from the current row. -/
def offer (cost : Nat → Nat → Int) (s : Search) (j : Nat) : Int :=
  cost s.row j - s.state.rowPotential.getD s.row 0 - s.state.columnPotential.getD j 0

/-- Whether the current row offers a better way to a column than is known. -/
def improves (cost : Nat → Nat → Int) (s : Search) (j : Nat) : Bool :=
  j != 0 && !s.reached.getD j false &&
    match s.slack.getD j none with
    | none => true
    | some known => s.offer cost j < known

/-- Takes the offers of the current row to all columns that are not reached yet. -/
def relax (cost : Nat → Nat → Int) (m : Nat) (s : Search) : Search :=
  { s with
    slack := tabulate (m + 1) fun j =>
      if s.improves cost j then some (s.offer cost j) else s.slack.getD j none
    state := { s.state with
      cameFrom := tabulate (m + 1) fun j =>
        if s.improves cost j then s.column else s.state.cameFrom.getD j 0 } }

/-- The better of a column seen so far and another one; the earlier wins a tie. -/
def nearer (s : Search) (best : Option (Nat × Int)) (j : Nat) : Option (Nat × Int) :=
  if s.reached.getD j false then best
  else match s.slack.getD j none, best with
    | none, _ => best
    | some x, none => some (j, x)
    | some x, some (k, y) => if x < y then some (j, x) else some (k, y)

/-- The column that is cheapest to reach next, and what it takes. -/
def nearest (m : Nat) (s : Search) : Option (Nat × Int) :=
  ((List.range m).map (· + 1)).foldl s.nearer none

/-- Whether a row is that of a reached column. -/
def rowReached (m : Nat) (s : Search) (i : Nat) : Bool :=
  (List.range (m + 1)).any fun j => s.reached.getD j false && s.state.rowOf.getD j 0 == i

/-- Moves to a column that takes `delta` to reach, and pays for it in the potentials. -/
def advance (n m : Nat) (s : Search) (j : Nat) (delta : Int) : Search :=
  { s with
    column := j
    slack := tabulate (m + 1) fun k =>
      if s.reached.getD k false then s.slack.getD k none
      else (s.slack.getD k none).map (· - delta)
    state := { s.state with
      rowPotential := tabulate (n + 1) fun i =>
        s.state.rowPotential.getD i 0 + if s.rowReached m i then delta else 0
      columnPotential := tabulate (m + 1) fun k =>
        s.state.columnPotential.getD k 0 - if s.reached.getD k false then delta else 0 } }

/-- One pass of the search: from the current column to the nearest one that is not reached. -/
def step (cost : Nat → Nat → Int) (n m : Nat) (s : Search) : Option Search :=
  let seen := (s.mark m).relax cost m
  (seen.nearest m).map fun (j, delta) => seen.advance n m j delta

/-- Passes until a free column is reached. Each pass reaches one more column, which bounds them. -/
def run (cost : Nat → Nat → Int) (n m : Nat) : Nat → Search → Search
  | 0, s => s
  | bound + 1, s =>
    match s.step cost n m with
    | none => s
    | some t => if t.row = 0 then t else run cost n m bound t

end Search

/-- Follows the way back from a free column to column zero and hands every row on it to the column
it was reached from. -/
def shift (cameFrom : Array Nat) : Nat → Nat → Array Nat → Array Nat
  | 0, _, rowOf => rowOf
  | bound + 1, j, rowOf =>
    if j = 0 then rowOf
    else
      let k := cameFrom.getD j 0
      shift cameFrom bound k (rowOf.setIfInBounds j (rowOf.getD k 0))

/-- The search that places a row. -/
def Search.start (m i : Nat) (s : State) : Search :=
  { state := { s with rowOf := s.rowOf.setIfInBounds 0 i }
    slack := tabulate (m + 1) fun _ => none
    reached := tabulate (m + 1) fun _ => false
    column := 0 }

/-- Places a row. -/
def State.place (cost : Nat → Nat → Int) (n m i : Nat) (s : State) : State :=
  let found := (Search.start m i s).run cost n m (m + 1)
  { found.state with rowOf := shift found.state.cameFrom (m + 1) found.column found.state.rowOf }

/-- No row is placed. -/
def State.initial (n m : Nat) : State :=
  { rowPotential := tabulate (n + 1) fun _ => 0
    columnPotential := tabulate (m + 1) fun _ => 0
    rowOf := tabulate (m + 1) fun _ => 0
    cameFrom := tabulate (m + 1) fun _ => 0 }

/-- The state after the rows `1 … count` are placed. -/
def State.after (cost : Nat → Nat → Int) (n m : Nat) : Nat → State
  | 0 => .initial n m
  | i + 1 => (State.after cost n m i).place cost n m (i + 1)

/-- What a pair lacks to the greatest weight; rows and columns are numbered from one. -/
def costOf (top : Int) (weight : Nat → Nat → Int) (i j : Nat) : Int :=
  top - max (weight (i - 1) (j - 1)) 0

/-- The chosen pairs, column by column, for at most as many rows as columns. -/
def wide (n m : Nat) (top : Int) (weight : Nat → Nat → Int) : List (Nat × Nat) :=
  let final := State.after (costOf top weight) n m n
  (List.range m).filterMap fun c =>
    let i := final.rowOf.getD (c + 1) 0
    if 0 < i ∧ 0 < weight (i - 1) c then some (i - 1, c) else none

/-- Ascending order of pairs. -/
def pairLe (a b : Nat × Nat) : Bool := a.1 < b.1 || (a.1 == b.1 && a.2 ≤ b.2)

/-- The greatest weight in the first `n` rows and `m` columns. -/
def greatest (n m : Nat) (weight : Nat → Nat → Int) : Option Int :=
  ((List.range n).flatMap fun r => (List.range m).map (weight r)).max?

/-- The pairs of greatest total weight in a matrix of `n` rows and `m` columns, in order. -/
def solve (n m : Nat) (weight : Nat → Nat → Int) : List (Nat × Nat) :=
  match greatest n m weight with
  | none => []
  | some top =>
    if top ≤ 0 then []
    else
      let pairs := if m < n then (wide m n top fun r c => weight c r).map fun (r, c) => (c, r)
        else wide n m top weight
      pairs.mergeSort pairLe

/-- The entry of a matrix given by its rows; zero outside. -/
def entry (rows : Array (Array Int)) (r c : Nat) : Int := (rows.getD r #[]).getD c 0

/-- The pairs of greatest total weight in a matrix given by its rows; none if the rows differ in
length. A matrix whose first row is empty has no pairs. -/
def ofRows? (rows : List (List Int)) : Option (List (Nat × Nat)) :=
  match rows with
  | [] => some []
  | first :: _ =>
    if first.isEmpty then some []
    else if rows.all fun r => r.length == first.length then
      let table := (rows.map List.toArray).toArray
      some (solve rows.length first.length (entry table))
    else none

end Assay.Assignment
