import Assay.Fault

/-!
# Lenient conversion of values

Stored reports and tool output are read leniently: a number may be written as text, a truth value
may stand for a number, and a missing value has a default. What cannot be converted is a fault of
kind, of range or of size.
-/

namespace Assay.Value

/-- Bytes as text; a byte outside ASCII becomes a character that no numeral holds. -/
def asciiText (bs : List UInt8) : String :=
  String.ofList (bs.map fun b => if b.toNat < 0x80 then Char.ofNat b.toNat else '?')

/-- The integer that a value stands for; a double is cut off towards zero. -/
def toInt : Value → Except Fault Int
  | .bool b => .ok (if b then 1 else 0)
  | .int n => .ok n
  | .float x =>
    match Binary64.truncate? x with
    | some n => .ok n
    | none => .error (if Binary64.isUndefined x then .rejected .undefinedInteger else .tooLarge)
  | .text s => (Numeral.readInt s).mapError .numeral
  | .bytes bs => (Numeral.readInt (asciiText bs)).mapError .numeral
  | _ => .error .wrongKind

/-- The double that a value stands for. -/
def toFloat : Value → Except Fault Float
  | .bool b => .ok (if b then 1 else 0)
  | .int n =>
    match Binary64.ofInt? n with
    | some x => .ok x
    | none => .error .tooLarge
  | .float x => .ok x
  | .text s => (Numeral.readFloat s).mapError .numeral
  | .bytes bs => (Numeral.readFloat (asciiText bs)).mapError .numeral
  | _ => .error .wrongKind

/-- The integer that a value stands for, if it stands for one; truth values do not. Only a number
too large for an integer is a fault. -/
def lenientInt : Value → Except Fault (Option Int)
  | .null => .ok none
  | .bool _ => .ok none
  | v =>
    match v.toInt with
    | .ok n => .ok (some n)
    | .error .tooLarge => .error .tooLarge
    | .error _ => .ok none

/-- The integer of a value, zero unless the value counts as given. -/
def intOrZero (v : Value) : Except Fault Int := if v.isTruthy then v.toInt else .ok 0

/-- The items of a value: of a list, the keys of a mapping, the characters of a text. -/
def items (v : Value) : Except Fault (List Value) :=
  match v.unfold with
  | .list vs | .tuple vs | .set vs => .ok vs
  | .map es => .ok (es.map (·.1))
  | .bytes bs => .ok (bs.map fun b => .int b.toNat)
  | .text s => .ok ((Text.units s.toList).map fun u => .text (String.ofList (Text.ofUnit u)))
  | _ => .error .wrongKind

/-- The items of a value, none unless the value counts as given. -/
def itemsOrNone (v : Value) : Except Fault (List Value) := if v.isTruthy then v.items else .ok []

/-- The value, if it has fields. -/
def requireFields (v : Value) : Except Fault Value := if v.isMap then .ok v else .error .noFields

/-- The value, if it has fields; the empty mapping unless the value counts as given. -/
def fieldsOrEmpty (v : Value) : Except Fault Value :=
  if v.isTruthy then v.requireFields else .ok (.map [])

/-- Whether a value can be a key: one that has parts cannot. -/
def isKey : Value → Bool
  | .list _ | .tuple _ | .set _ | .map _ | .ref _ | .looped .. => false
  | _ => true

/-- The entries of items that are pairs, the first of which is number `index`. -/
def pairsOf (index : Nat) : List Value → Except Fault (List (Value × Value))
  | [] => .ok []
  | v :: rest => do
    let parts ← v.items
    match parts with
    | [k, x] =>
      if k.isKey then return (k, x) :: (← pairsOf (index + 1) rest) else throw .wrongKind
    | other => throw (.rejected (.pairLength index other.length))

/-- A value as a mapping: a mapping itself, or items that are pairs; empty unless the value counts
as given. -/
def toMapping (v : Value) : Except Fault Value :=
  if !v.isTruthy then .ok (.map [])
  else if v.isMap then .ok v
  else do return .ofEntries (← pairsOf 0 (← v.items))

end Assay.Value
