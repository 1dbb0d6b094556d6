import Assay.Value.Convert

/-!
# Settings of the matching

How far a finding may lie from the middle of a defect, and what a finding without a line is worth.
The tolerance is an integer that is not negative, and the discount lies above zero and is at most
one.
-/

namespace Assay

/-- The settings of a matching. -/
structure MatchSettings where
  tolerance : Int
  coarseDiscount : Float
  deriving Repr

namespace MatchSettings

/-- Tolerance unless one is given. -/
def defaultTolerance : Int := 3

/-- Discount unless one is given. -/
def defaultDiscount : Float := 0.5

/-- Whether a discount is admitted. -/
def admitsDiscount (x : Float) : Bool := 0.0 < x && x ≤ 1.0

/-- The tolerance that a value stands for: a number that is whole, not negative and no truth
value. -/
def toleranceOf (v : Value) : Except Fault Int :=
  match v with
  | .bool _ => .error (.rejected (.tolerance v))
  | _ => do
    let n ← v.toInt
    if v.same (.int n) && 0 ≤ n then return n else throw (.rejected (.tolerance v))

/-- The discount that a value stands for. -/
def discountOf (v : Value) : Except Fault Float := do
  let x ← v.toFloat
  if admitsDiscount x then return x else throw (.rejected (.coarseDiscount v))

/-- The settings that two values stand for. -/
def ofValues (tolerance discount : Value) : Except Fault MatchSettings := do
  return ⟨← toleranceOf tolerance, ← discountOf discount⟩

/-- The settings as a document. -/
def toValue (s : MatchSettings) : Value :=
  .record [("tolerance", .int s.tolerance), ("coarse_discount", .float s.coarseDiscount)]

end MatchSettings

end Assay
