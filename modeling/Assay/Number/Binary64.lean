import Assay.Number.Power
import Assay.Number.Rounding

/-!
# Binary floating point, exactly

A finite double is a signed integer times a power of two. Everything that must be exact about
doubles goes through that form: reading a decimal, comparing with an integer, rounding, and the
shortest decimal that reads back.
-/

namespace Assay

/-- What a double stands for: a signed multiple of a power of two, an infinity, or no number. -/
inductive Magnitude where
  | finite (negative : Bool) (mantissa : Nat) (exponent : Int)
  | infinite (negative : Bool)
  | undefined
  deriving Repr, DecidableEq

namespace Binary64

/-- Decodes the sign, the exponent and the mantissa of a double. -/
def magnitude (x : Float) : Magnitude :=
  let bits : Nat := x.toBits.toNat
  let negative := bits / twoTo 63 == 1
  let field : Nat := bits / twoTo 52 % twoTo 11
  let fraction : Nat := bits % twoTo 52
  if field == 2047 then (if fraction == 0 then .infinite negative else .undefined)
  else if field == 0 then .finite negative fraction (-1074)
  else .finite negative (twoTo 52 + fraction) ((field : Int) - 1075)

/-- The double of a sign and the remaining 63 bits. -/
def ofFields (negative : Bool) (rest : Nat) : Float :=
  Float.ofBits (UInt64.ofNat ((if negative then twoTo 63 else 0) + rest))

/-- Positive infinity, without its sign. -/
def infinityBits : Nat := 2047 * twoTo 52

/-- `num / den` scaled by `2 ^ (-e)`, rounded to the nearest integer. -/
def scaledQuotient (num den : Nat) (e : Int) : Nat :=
  if e < 0 then roundQuotient (num * twoTo (-e).toNat) den
  else roundQuotient num (den * twoTo e.toNat)

/-- The exponent at which `num / den` has 53 bits, or the smallest one there is. -/
def exponentOf (num den : Nat) : Int :=
  let e : Int := (num.log2 : Int) - den.log2 - 52
  let below := if e < 0 then num * twoTo (-e).toNat < den * twoTo 52
    else num < den * twoTo e.toNat * twoTo 52
  max (-1074) (if below then e - 1 else e)

/-- The bits of the double nearest to `num / den`, the sign apart. -/
def nearestBits (num den : Nat) : Nat :=
  if num = 0 then 0 else
  let e := exponentOf num den
  -- A mantissa that rounds up to 2^53 carries into the exponent, as it should.
  let bits := (e + 1074).toNat * twoTo 52 + scaledQuotient num den e
  min bits infinityBits

/-- The double nearest to `num / den`, a tie going to the even mantissa. -/
def nearest (negative : Bool) (num den : Nat) : Float := ofFields negative (nearestBits num den)

/-- The double nearest to `digits * 10 ^ exponent`. -/
def ofDecimal (negative : Bool) (digits : Nat) (exponent : Int) : Float :=
  -- Beyond these bounds the result is known without building the power.
  let size : Int := (digits.log2 : Int) * 30103 / 100000 + exponent
  if digits = 0 then ofFields negative 0
  else if 320 < size then ofFields negative infinityBits
  else if size < -400 then ofFields negative 0
  else if exponent < 0 then nearest negative digits (tenTo (-exponent).toNat)
  else nearest negative (digits * tenTo exponent.toNat) 1

/-- The double nearest to an integer, if it is in range. -/
def ofInt? (n : Int) : Option Float :=
  if nearestBits n.natAbs 1 < infinityBits then some (nearest (n < 0) n.natAbs 1) else none

/-- A finite double as a quotient of integers. -/
def ratio? (x : Float) : Option (Int × Nat) :=
  match magnitude x with
  | .finite negative m e =>
    let sign : Int := if negative then -1 else 1
    some (if e < 0 then (sign * m, twoTo (-e).toNat) else (sign * (m * twoTo e.toNat : Nat), 1))
  | _ => none

/-- The integer part of a finite double, cut off towards zero. -/
def truncate? (x : Float) : Option Int := (ratio? x).map fun (n, d) => n.tdiv d

/-- The integer nearest to a finite double, a tie going to the even neighbour. -/
def round? (x : Float) : Option Int :=
  (ratio? x).map fun (n, d) =>
    let m : Int := roundQuotient n.natAbs d
    if n < 0 then -m else m

/-- Exact comparison of an integer with a double; a double that is no number compares with none. -/
def compareInt (n : Int) (x : Float) : Option Ordering :=
  match magnitude x with
  | .undefined => none
  | .infinite negative => some (if negative then .gt else .lt)
  | .finite .. => (ratio? x).map fun (m, d) => compare (n * d) m

/-- Whether a double is not a number. -/
def isUndefined (x : Float) : Bool := magnitude x == .undefined

end Binary64

end Assay
