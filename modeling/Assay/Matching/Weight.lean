import Assay.Matching.Settings
import Assay.MatchResult
import Assay.Number.Decimal

/-!
# The weight of a pair

A finding may match a defect in the same file whose category it has with some confidence, if its
line is within the tolerance of the middle of the defect or if it has no usable line. The weight is
the confidence times the proximity: one at the middle, falling linearly, and a fixed discount for a
finding without a line.
-/

namespace Assay

/-- A double of an integer, or a fault of size. -/
def floatOfInt (n : Int) : Except Fault Float :=
  match Binary64.ofInt? n with
  | some x => .ok x
  | none => .error .tooLarge

/-- The weight of a finding and a defect, if they may match. -/
def pairWeight (s : MatchSettings) (f : Finding) (d : Defect) : Except Fault (Option Float) := do
  if f.file ≠ d.file then return none
  let confidence := f.confidenceFor d.category
  if confidence ≤ 0 then return none
  match f.line with
  | some line =>
    if f.coarse then return some (confidence * s.coarseDiscount)
    let middle ← d.location.midpoint
    let distance := ((← floatOfInt line) - middle).abs
    if Binary64.compareInt s.tolerance distance == some .lt then return none
    let proximity := 1 - distance / (← floatOfInt (s.tolerance + 1))
    return some (confidence * (if proximity > 0 then proximity else 0))
  | none => return some (confidence * s.coarseDiscount)

/-- Weights are compared in billionths. -/
def weightScale : Float := 1000000000

/-- A weight in billionths, at least one. -/
def primaryWeight (w : Float) : Except Fault Nat :=
  let scaled := w * weightScale
  match Binary64.round? scaled with
  | some n => .ok (max 1 n.toNat)
  | none =>
    .error (if Binary64.isUndefined scaled then .rejected .undefinedInteger else .tooLarge)

/-- A double rounded to the places of a score. What is no number stays so; an infinity and a number
too long for a decimal have no rounded form. -/
def roundedScore (x : Float) : Except Fault Float :=
  match Decimal.ofFloat? x with
  | some d =>
    match d.toPlaces? with
    | some r => .ok r.toFloat
    | none => .error .noDecimal
  | none => if Binary64.isUndefined x then .ok x else .error .noDecimal

end Assay
