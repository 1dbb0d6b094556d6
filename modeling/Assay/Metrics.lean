import Assay.MatchResult
import Assay.Number.Decimal

/-!
# Metrics

Precision, recall and their harmonic mean, for each category, over all results, and averaged over
the categories. A match or a missed defect counts for the category of the defect, a finding that
matches nothing for its own first category; findings without a known category are counted apart.
Ratios are exact and rounded once. A category without known defects has no recall; otherwise nothing
divided by nothing is zero.
-/

namespace Assay

/-- A ratio of counts, zero if there is nothing to divide by. -/
def ratio (num den : Int) : Rat := if den = 0 then 0 else (num : Rat) / den

/-- The harmonic mean of precision and recall. -/
def harmonic (p r : Rat) : Rat := if p + r = 0 then 0 else 2 * p * r / (p + r)

/-- The score that a report shows for a ratio. -/
def Score.ofRat (q : Rat) : Score := Score.ofRatio q.num.natAbs q.den

/-- How many results of each sort a category has. -/
structure Tally where
  matched : Nat
  spurious : Nat
  missed : Nat
  deriving Repr, DecidableEq, Inhabited

namespace Tally

/-- No results. -/
def zero : Tally := ⟨0, 0, 0⟩

/-- The counts of two tallies together. -/
def add (a b : Tally) : Tally :=
  ⟨a.matched + b.matched, a.spurious + b.spurious, a.missed + b.missed⟩

/-- The number of known defects. -/
def defects (t : Tally) : Nat := t.matched + t.missed

/-- The share of the findings that match. -/
def precision (t : Tally) : Rat := ratio t.matched (t.matched + t.spurious : Nat)

/-- The share of the defects that are found. -/
def recallRate (t : Tally) : Rat := ratio t.matched t.defects

/-- The harmonic mean of precision and recall. -/
def f1 (t : Tally) : Rat := harmonic t.precision t.recallRate

end Tally

/-- The metrics of one category, or of all results. -/
structure Block where
  tally : Tally
  precision : Score
  /-- None for a category without known defects. -/
  recallRate : Option Score
  f1 : Score
  deriving Repr, DecidableEq, Inhabited

namespace Block

/-- The metrics of a tally. Without known defects there is no recall and the mean is zero. -/
def ofTally (hasDefects : Bool) (t : Tally) : Block :=
  { tally := t
    precision := .ofRat t.precision
    recallRate := if hasDefects then some (.ofRat t.recallRate) else none
    f1 := if hasDefects then .ofRat t.f1 else ⟨0⟩ }

/-- The fields of a block. -/
def fields (b : Block) : List (String × Value) := [
  ("tp", .int b.tally.matched),
  ("fp", .int b.tally.spurious),
  ("fn", .int b.tally.missed),
  ("ground_truth", .int b.tally.defects),
  ("precision", .float b.precision.toFloat),
  ("recall", .ofOption (fun s => .float s.toFloat) b.recallRate),
  ("f1", .float b.f1.toFloat)]

end Block

/-- What one result adds to the counts. -/
inductive Contribution where
  | matched (c : Category) (conditional : Bool)
  | missed (c : Category) (conditional : Bool)
  | spurious (c : Category)
  | unclassified
  deriving Repr, DecidableEq

namespace Contribution

/-- What a result adds. Its kind must be known and the part that counts must be there. -/
def ofResult (r : MatchResult) : Except Fault Contribution :=
  match MatchKind.ofLabel? r.kind with
  | none => .error (.rejected (.unknownResultKind r.kind))
  | some .matched =>
    match r.defect with
    | some d => .ok (.matched d.category d.conditional)
    | none => .error (.rejected (.missingPart r.kind "ground_truth"))
  | some .falseNegative =>
    match r.defect with
    | some d => .ok (.missed d.category d.conditional)
    | none => .error (.rejected (.missingPart r.kind "ground_truth"))
  | some .falsePositive =>
    match r.finding with
    | some f => .ok (.spurious f.primary)
    | none => .error (.rejected (.missingPart r.kind "finding"))
  | some .unclassified => .ok .unclassified

/-- The tally of a contribution within a category. -/
def tallyFor (c : Category) : Contribution → Tally
  | .matched c' _ => if c' = c then ⟨1, 0, 0⟩ else .zero
  | .missed c' _ => if c' = c then ⟨0, 0, 1⟩ else .zero
  | .spurious c' => if c' = c then ⟨0, 1, 0⟩ else .zero
  | .unclassified => .zero

/-- Whether a contribution speaks of a conditional defect. -/
def isConditional : Contribution → Bool
  | .matched _ b => b
  | .missed _ b => b
  | _ => false

/-- Whether a contribution speaks of a conditional defect that was missed. -/
def isConditionalMiss : Contribution → Bool
  | .missed _ b => b
  | _ => false

end Contribution

/-- The metrics of a run. -/
structure Metrics where
  overall : Block
  unclassified : Nat
  macroPrecision : Score
  macroRecall : Score
  macroF1 : Score
  byCategory : List (Category × Block)
  conditional : Nat
  conditionalMissed : Nat
  deriving Repr, DecidableEq, Inhabited

namespace Metrics

/-- The tally of a category. -/
def tallyOf (cs : List Contribution) (c : Category) : Tally :=
  cs.foldl (fun t x => t.add (x.tallyFor c)) .zero

/-- The categories with a result, in order. -/
def present (cs : List Contribution) : List Category :=
  Category.all.filter fun c => tallyOf cs c != .zero

/-- The mean of some ratios, zero if there are none. -/
def mean (qs : List Rat) : Rat := if qs.isEmpty then 0 else qs.foldl (· + ·) 0 / qs.length

/-- The metrics of contributions. -/
def ofContributions (cs : List Contribution) : Metrics :=
  let cats := present cs
  let tallies := cats.map (tallyOf cs)
  let sum := tallies.foldl Tally.add .zero
  let p := mean ((tallies.filter fun t => 0 < t.matched + t.spurious).map Tally.precision)
  let r := mean ((tallies.filter fun t => 0 < t.defects).map Tally.recallRate)
  { overall := .ofTally true sum
    unclassified := (cs.filter (· == .unclassified)).length
    macroPrecision := .ofRat p
    macroRecall := .ofRat r
    macroF1 := .ofRat (harmonic p r)
    byCategory := cats.map fun c =>
      let t := tallyOf cs c
      (c, .ofTally (0 < t.defects) t)
    conditional := (cs.filter Contribution.isConditional).length
    conditionalMissed := (cs.filter Contribution.isConditionalMiss).length }

/-- The metrics of match results. -/
def ofResults (rs : List MatchResult) : Except Fault Metrics := do
  return ofContributions (← rs.mapM Contribution.ofResult)

/-- The number of findings that were counted. -/
def findings (m : Metrics) : Nat :=
  m.overall.tally.matched + m.overall.tally.spurious + m.unclassified

/-- The metrics as a document. -/
def toValue (m : Metrics) : Value :=
  .record [
    ("overall", .record (m.overall.fields ++
      [("unclassified", .int m.unclassified), ("findings", .int m.findings)])),
    ("macro", .record [
      ("precision", .float m.macroPrecision.toFloat),
      ("recall", .float m.macroRecall.toFloat),
      ("f1", .float m.macroF1.toFloat)]),
    ("by_category", .record (m.byCategory.map fun (c, b) => (c.label, .record b.fields))),
    ("conditional", .record [
      ("total", .int m.conditional),
      ("missed", .int m.conditionalMissed)])]

end Metrics

end Assay
