import Assay.Number.Shortest

/-!
# Decimals and reported scores

Scores are decimals with four places. A quotient is first written with 28 significant digits and
then cut to four places, each time to the nearest value with ties to the even digit; a decimal that
would need more than 28 digits has no such form.
-/

namespace Assay

/-- A signed decimal, `±digits * 10 ^ exponent`. -/
structure Decimal where
  negative : Bool
  digits : Nat
  exponent : Int
  deriving Repr, DecidableEq

namespace Decimal

/-- Significant digits of a quotient, and the most that a result may have. -/
def precision : Nat := 28

/-- Decimal places of a reported score. -/
def places : Nat := 4

/-- An integer as a decimal. -/
def ofInt (n : Int) : Decimal := ⟨n < 0, n.natAbs, 0⟩

/-- The decimal exponent at which `num / den` has `precision` digits before the point. -/
def quotientExponent (num den : Nat) : Int :=
  let e : Int := (Shortest.width num : Int) - Shortest.width den - precision
  -- `num / den / 10 ^ e` has `precision` digits or one more.
  let long := if e < 0 then den * tenTo precision ≤ num * tenTo (-e).toNat
    else den * tenTo e.toNat * tenTo precision ≤ num
  if long then e + 1 else e

/-- The quotient of two numbers to `precision` significant digits. -/
def quotient (negative : Bool) (num den : Nat) : Decimal :=
  if num = 0 then ⟨negative, 0, 0⟩
  else
    let e := quotientExponent num den
    let digits := if e < 0 then roundQuotient (num * tenTo (-e).toNat) den
      else roundQuotient num (den * tenTo e.toNat)
    ⟨negative, digits, e⟩

/-- The number of units of the last place when a decimal is cut to `places` places. -/
def units (d : Decimal) : Nat :=
  let e := d.exponent + places
  if e < 0 then roundQuotient d.digits (tenTo (-e).toNat) else d.digits * tenTo e.toNat

/-- A decimal cut to `places` places, if that takes at most `precision` digits. -/
def toPlaces? (d : Decimal) : Option Decimal :=
  if d.units < tenTo precision then some ⟨d.negative, d.units, -(places : Int)⟩ else none

/-- The double nearest to a decimal. -/
def toFloat (d : Decimal) : Float := Binary64.ofDecimal d.negative d.digits d.exponent

/-- The shortest decimal of a finite double. -/
def ofFloat? (x : Float) : Option Decimal :=
  match Binary64.magnitude x with
  | .finite negative m e =>
    if m = 0 then some ⟨negative, 0, 0⟩
    else
      let d := Shortest.digits m e
      some ⟨negative, d.digits, d.exponent⟩
  | _ => none

end Decimal

/-- A reported score in ten-thousandths. -/
structure Score where
  units : Nat
  deriving Repr, DecidableEq

namespace Score

instance : Inhabited Score := ⟨⟨0⟩⟩

/-- The score of a ratio that is not negative. -/
def ofRatio (num den : Nat) : Score := ⟨(Decimal.quotient false num den).units⟩

/-- The double that a report shows for a score. -/
def toFloat (s : Score) : Float := Decimal.toFloat ⟨false, s.units, -4⟩

end Score

end Assay
