import Assay.Matching.Assignment
import Assay.Matching.Component
import Assay.Matching.Weight
import Assay.Diagnostics

/-!
# Matching findings with known defects

Every file is matched on its own. Its defects stand in the order of their names and its findings in
the order of the run. Of all ways to pair them one to one, the matching takes one of greatest total
weight; among those of equal weight it prefers earlier defects, then earlier findings. The
preference is a bonus below one unit of weight, so it never costs any. Pairs that no chain of
candidates connects do not influence each other, so every component is solved on its own.
-/

namespace Assay

/-- A candidate pair of a file: the positions of defect and finding, and the weight. -/
structure Edge where
  defect : Nat
  finding : Nat
  weight : Float
  /-- The weight in billionths. -/
  primary : Nat
  deriving Repr

namespace Matching

/-- The order in which the defects of a file are preferred. -/
def defectBefore (a b : Defect) : Bool :=
  Text.before a.id b.id || (a.id == b.id && (Text.before a.sampleId b.sampleId ||
    (a.sampleId == b.sampleId && a.location.lineStart < b.location.lineStart)))

/-- The defects of a file in order of preference. -/
def defectsIn (file : String) (ds : List Defect) : List Defect :=
  (ds.filter (·.file == file)).mergeSort fun a b => !defectBefore b a

/-- The findings in a file in the order of the run. -/
def findingsIn (file : String) (fs : List Finding) : List Finding :=
  (fs.filter (·.file == file)).mergeSort fun a b => a.index ≤ b.index

/-- The candidate pair of two positions, if the weight admits it. -/
def edge? (weight : Finding → Defect → Except Fault (Option Float)) (g : Nat × Defect)
    (c : Nat × Finding) : Except Fault (Option Edge) := do
  match ← weight c.2 g.2 with
  | none => return none
  | some w => return some ⟨g.1, c.1, w, ← primaryWeight w⟩

/-- The items of a list with their positions. -/
def numbered (xs : List α) : List (Nat × α) := (List.range xs.length).zip xs

/-- The candidate pairs of a file. -/
def edges (weight : Finding → Defect → Except Fault (Option Float)) (fs : List Finding)
    (ds : List Defect) : Except Fault (List Edge) := do
  let rows ← (numbered ds).mapM fun g => (numbered fs).mapM (edge? weight g)
  return rows.flatten.reduceOption

/-- The greatest bonus of a pair among `g` defects and `c` findings. -/
def maxBonus (g c : Nat) : Nat := g * (c + 1) + c

/-- What one unit of primary weight counts: more than all bonuses of a matching together. -/
def unit (g c : Nat) : Nat := min g c * maxBonus g c + 1

/-- The bonus of a pair: earlier defects first, then earlier findings. -/
def bonus (g c : Nat) (e : Edge) : Nat := (g - e.defect) * (c + 1) + (c - e.finding)

/-- The weight of a pair with its bonus. -/
def total (g c : Nat) (e : Edge) : Nat := e.primary * unit g c + bonus g c e

/-- The weight of the pair at two positions; zero if they are no candidates. -/
def weightAt (g c : Nat) (es : List Edge) (defect finding : Nat) : Int :=
  match es.find? fun e => e.defect == defect && e.finding == finding with
  | some e => total g c e
  | none => 0

/-- The chosen pairs of one component, as positions in the file. -/
def solveComponent (g c : Nat) (es : List Edge) (part : Component) : List (Nat × Nat) :=
  let rows := part.defects.map fun d => part.findings.map fun f => weightAt g c es d f
  let table := (rows.map List.toArray).toArray
  (Assignment.solve part.defects.length part.findings.length (Assignment.entry table)).map
    fun (r, k) => (part.defects.getD r 0, part.findings.getD k 0)

/-- The chosen pairs of a file with `g` defects and `c` findings. -/
def chosen (g c : Nat) (es : List Edge) : List (Nat × Nat) :=
  (Component.ofEdges (es.map fun e => (e.defect, e.finding))).flatMap (solveComponent g c es)

/-- The results of a file: matches, missed defects, findings that match nothing. -/
def matchFile (weight : Finding → Defect → Except Fault (Option Float)) (fs : List Finding)
    (ds : List Defect) : Except Fault (List MatchResult) := do
  let es ← edges weight fs ds
  let pairs := chosen ds.length fs.length es
  let hits ← pairs.filterMapM fun (g, c) => do
    match ds[g]?, fs[c]?, es.find? (fun e => e.defect == g && e.finding == c) with
    | some d, some f, some e => return some (MatchResult.matched f d (← roundedScore e.weight))
    | _, _, _ => return none
  let missed := (numbered ds).filter fun (g, _) => !pairs.any (·.1 == g)
  let extra := (numbered fs).filter fun (c, _) => !pairs.any (·.2 == c)
  return hits ++ missed.map (MatchResult.missed ·.2) ++ extra.map (MatchResult.unmatched ·.2)

/-- The files that findings or defects are in, in ascending order. -/
def files (fs : List Finding) (ds : List Defect) : List String :=
  Diagnostics.canonical (ds.map Defect.file ++ fs.map Finding.file)

/-- Results in the order of their keys. -/
def sorted (rs : List MatchResult) : Except Fault (List MatchResult) := do
  let keyed ← rs.mapM fun r => do return (← r.key, r)
  return (keyed.mergeSort fun a b => !b.1.before a.1).map (·.2)

/-- The results of findings against defects under any weight. -/
def matchWith (weight : Finding → Defect → Except Fault (Option Float)) (fs : List Finding)
    (ds : List Defect) : Except Fault (List MatchResult) := do
  let parts ← (files fs ds).mapM fun file =>
    matchFile weight (findingsIn file fs) (defectsIn file ds)
  sorted parts.flatten

/-- The results of findings against defects. -/
def run (s : MatchSettings) (fs : List Finding) (ds : List Defect) :
    Except Fault (List MatchResult) :=
  matchWith (pairWeight s) fs ds

end Matching

end Assay
