import Assay.Number.Binary64

/-!
# The shortest decimal that reads back

Of all decimals that lie in the interval of numbers rounding to a given double, the one with the
fewest digits is chosen, and of those the nearest, a tie going to the even last digit. If a decimal
grid meets the interval at all, one of the two grid points next to the double does, so it is enough
to test these on finer and finer grids. Seventeen digits always suffice.
-/

namespace Assay

/-- `digits * 10 ^ exponent`, without trailing zeros in `digits`. -/
structure Digits where
  digits : Nat
  exponent : Int
  deriving Repr, DecidableEq

namespace Shortest

/-- The number of decimal digits of a positive number. -/
def width (n : Nat) : Nat := (Nat.toDigits 10 n).length

/-- An interval with a point in it, all multiples of one unit. -/
structure Target where
  low : Nat
  value : Nat
  high : Nat
  /-- Whether the ends belong to the interval. -/
  closed : Bool
  deriving Repr

/-- The numbers that round to `m * 2 ^ e`, in units of `2 ^ (e - 2)`. -/
def target (m : Nat) (e : Int) : Target :=
  let lowGap := if m = twoTo 52 ∧ -1074 < e then 1 else 2
  { low := 4 * m - lowGap, value := 4 * m, high := 4 * m + 2, closed := m % 2 == 0 }

/-- Whether the point `n / d` of the target's unit lies in it. -/
def Target.holds (t : Target) (n d : Nat) : Bool :=
  if t.closed then t.low * d ≤ n && n ≤ t.high * d else t.low * d < n && n < t.high * d

/-- The grid point of step `10 ^ k` in the target that is nearest to its value, if there is one; a
tie goes to the even multiple. The unit of the target is `unitNum / unitDen`. -/
def onGrid (t : Target) (unitNum unitDen : Nat) (k : Int) : Option Nat :=
  -- One grid step is `stepNum / stepDen` units.
  let stepNum := (if k < 0 then 1 else tenTo k.toNat) * unitDen
  let stepDen := (if k < 0 then tenTo (-k).toNat else 1) * unitNum
  let below := t.value * stepDen / stepNum
  let lowHit := t.holds (below * stepNum) stepDen
  let highHit := t.holds ((below + 1) * stepNum) stepDen
  if lowHit && highHit then some (roundQuotient (t.value * stepDen) stepNum)
  else if lowHit then some below
  else if highHit then some (below + 1)
  else none

/-- The first grid with a hit, from a coarse step to a fine one. -/
def search (t : Target) (unitNum unitDen : Nat) : Nat → Int → Digits
  | 0, k => ⟨0, k⟩
  | fuel + 1, k =>
    match onGrid t unitNum unitDen k with
    | some n => ⟨n, k⟩
    | none => search t unitNum unitDen fuel (k - 1)

/-- Drops trailing zeros, moving them into the exponent. -/
def normalize : Nat → Digits → Digits
  | 0, d => d
  | fuel + 1, d =>
    if d.digits ≠ 0 ∧ d.digits % 10 = 0 then normalize fuel ⟨d.digits / 10, d.exponent + 1⟩ else d

/-- The shortest decimal that reads back as `m * 2 ^ e`, for a positive `m`. -/
def digits (m : Nat) (e : Int) : Digits :=
  let unitNum := if e < 2 then 1 else twoTo (e - 2).toNat
  let unitDen := if e < 2 then twoTo (2 - e).toNat else 1
  -- `10 ^ top` is above the value, so that the first grid is too coarse.
  let top : Int := ((m.log2 : Int) + e + 1) * 30103 / 100000 + 2
  normalize 20 (search (target m e) unitNum unitDen 24 top)

end Shortest

/-- How a decimal is laid out as text. -/
structure Layout where
  /-- The least position of the point for positional notation. -/
  lowPoint : Int
  /-- The greatest position of the point for positional notation. -/
  highPoint : Int
  /-- The least number of digits of an exponent. -/
  exponentDigits : Nat

namespace Layout

/-- Zeros as text. -/
def zeros (n : Nat) : String := String.ofList (List.replicate n '0')

/-- An exponent with its sign and at least `least` digits. -/
def exponent (least : Nat) (e : Int) : String :=
  let s := toString e.natAbs
  (if e < 0 then "-" else "+") ++ zeros (least - s.length) ++ s

/-- A decimal with a point or an exponent, so that it is never taken for an integer. -/
def render (f : Layout) (d : Digits) : String :=
  let s := toString d.digits
  let point : Int := d.exponent + s.length
  if d.digits = 0 then "0.0"
  else if f.lowPoint ≤ point ∧ point ≤ f.highPoint then
    if point ≤ 0 then "0." ++ zeros (-point).toNat ++ s
    else if (s.length : Int) ≤ point then s ++ zeros (point - s.length).toNat ++ ".0"
    else String.ofList (s.toList.take point.toNat) ++ "." ++
      String.ofList (s.toList.drop point.toNat)
  else
    let first := String.ofList (s.toList.take 1)
    let rest := String.ofList (s.toList.drop 1)
    first ++ (if rest.isEmpty then "" else "." ++ rest) ++ "e" ++ exponent f.exponentDigits (point - 1)

end Layout

namespace Binary64

/-- Numbers are positional from 0.0001 to below 10^16; an exponent has two digits or more. -/
def plainLayout : Layout := ⟨-3, 16, 2⟩

/-- The shortest text of a double that reads back as it. -/
def toText (x : Float) : String :=
  match magnitude x with
  | .undefined => "nan"
  | .infinite negative => if negative then "-inf" else "inf"
  | .finite negative m e =>
    let body := if m = 0 then "0.0" else plainLayout.render (Shortest.digits m e)
    if negative then "-" ++ body else body

/-- A number with a fixed number of decimal places, its last digit rounded from the exact value. -/
def toFixed (places : Nat) (x : Float) : String :=
  match magnitude x with
  | .undefined => "nan"
  | .infinite negative => if negative then "-inf" else "inf"
  | .finite negative m e =>
    let units := if e < 0 then roundQuotient (m * tenTo places) (twoTo (-e).toNat)
      else m * twoTo e.toNat * tenTo places
    let s := toString (units % tenTo places)
    (if negative then "-" else "") ++ toString (units / tenTo places) ++ "." ++
      Layout.zeros (places - s.length) ++ s

end Binary64

end Assay
