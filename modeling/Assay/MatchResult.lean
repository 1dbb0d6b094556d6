import Assay.Defect
import Assay.Finding

/-!
# Match results

A result says what became of a finding or of a known defect: the two were matched, a defect was
missed, a finding matches nothing, or a finding has no known category. Results that are read back
may carry any kind and lack any part; `MatchKind` says which kinds there are and which parts each
one needs.
-/

namespace Assay

/-- What a result says. -/
inductive MatchKind where
  | matched
  | falseNegative
  | falsePositive
  | unclassified
  deriving Repr, DecidableEq, Inhabited

namespace MatchKind

/-- Every kind, in the order of results at one place. -/
def all : List MatchKind := [.matched, .falseNegative, .falsePositive, .unclassified]

/-- The written name of a kind. -/
def label : MatchKind → String
  | .matched => "matched"
  | .falseNegative => "false_negative"
  | .falsePositive => "false_positive"
  | .unclassified => "unclassified"

/-- The position of a kind among results at one place. -/
def rank : MatchKind → Nat
  | .matched => 0
  | .falseNegative => 1
  | .falsePositive => 2
  | .unclassified => 3

/-- The kind of a written name. -/
def ofLabel? (s : String) : Option MatchKind := all.find? (·.label == s)

/-- Whether a result of this kind speaks of a known defect. -/
def needsDefect : MatchKind → Bool
  | .matched | .falseNegative => true
  | _ => false

/-- Whether a result of this kind speaks of a finding. -/
def needsFinding : MatchKind → Bool
  | .falseNegative => false
  | _ => true

end MatchKind

/-- What became of a finding, of a known defect, or of both. -/
structure MatchResult where
  kind : String
  finding : Option Finding
  defect : Option Defect
  score : Option Float
  deriving Repr, Inhabited

namespace MatchResult

/-- A finding and the known defect that it found. -/
def matched (f : Finding) (d : Defect) (score : Float) : MatchResult :=
  ⟨MatchKind.matched.label, some f, some d, some score⟩

/-- A known defect that no finding matches. -/
def missed (d : Defect) : MatchResult := ⟨MatchKind.falseNegative.label, none, some d, none⟩

/-- A finding that matches no known defect. -/
def unmatched (f : Finding) : MatchResult :=
  ⟨(if f.isUnclassified then MatchKind.unclassified else MatchKind.falsePositive).label,
    some f, none, none⟩

/-- The order of results: file, line, kind, defect, finding. -/
structure Key where
  file : String
  line : Int
  rank : Nat
  defectId : String
  index : Int
  deriving Repr, DecidableEq

/-- Lexicographic order of keys. -/
def Key.before (a b : Key) : Bool :=
  Text.before a.file b.file || (a.file == b.file &&
    (a.line < b.line || (a.line == b.line &&
      (a.rank < b.rank || (a.rank == b.rank &&
        (Text.before a.defectId b.defectId || (a.defectId == b.defectId && a.index < b.index)))))))

/-- Where a result stands: at the defect it speaks of, else at the finding. -/
def place (r : MatchResult) : Except Fault (String × Int) :=
  match r.defect, r.finding with
  | some d, _ => .ok (d.file, d.location.lineStart)
  | none, some f => .ok (f.file, f.line.getD 0)
  | none, none => .error (.rejected (.noParts r.kind))

/-- The key of a result. -/
def key (r : MatchResult) : Except Fault Key := do
  let (file, line) ← r.place
  match MatchKind.ofLabel? r.kind with
  | none => throw .noEntry
  | some k =>
    return ⟨file, line, k.rank, (r.defect.map Defect.id).getD "", (r.finding.map Finding.index).getD (-1)⟩

/-- The result as a document. -/
def toValue (r : MatchResult) : Value :=
  .record [
    ("kind", .text r.kind),
    ("finding", .ofOption Finding.toValue r.finding),
    ("ground_truth", .ofOption Defect.toValue r.defect),
    ("score", .ofOption .float r.score)]

/-- Reads a result: its kind must be known and the parts that the kind needs must be there. -/
def ofValue (v : Value) : Except Fault MatchResult := do
  let d ← v.requireFields
  let finding := d.get "finding"
  let defect := d.get "ground_truth"
  let score := d.get "score"
  let label := (d.get "kind").textOrEmpty
  match MatchKind.ofLabel? label with
  | none => throw (.rejected (.unknownMatchKind label))
  | some kind =>
    if kind.needsDefect && !defect.isMap then throw (.rejected (.missingPart label "ground_truth"))
    if kind.needsFinding && !finding.isMap then throw (.rejected (.missingPart label "finding"))
    return {
      kind := label
      finding := ← if finding.isMap then (Finding.ofValue finding).map some else .ok none
      defect := ← if defect.isMap then (Defect.ofValue defect).map some else .ok none
      score := ← if score.isNull then .ok none else score.toFloat.map some }

end MatchResult

end Assay
