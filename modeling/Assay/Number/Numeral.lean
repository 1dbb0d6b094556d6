import Assay.Number.Binary64
import Assay.Text.Blank
import Assay.Text.Digit
import Assay.Text.Hex
import Assay.Text.Quoted

/-!
# Numerals

Integers and decimals written in text: a sign, digits of any script, single underscores between
digits, and blanks around the whole. An integer may have at most 4300 digits, in text and when it is
written, unless its base is a power of two. A text that is no numeral is named in the error, between
quotes.
-/

namespace Assay

/-- Why a text is not read as a number. -/
inductive NumeralError where
  | notInteger (text : String) (base : Nat)
  | notDecimal (text : String)
  | tooLong (digits : Nat)
  /-- An integer that has no written form because it has too many digits. -/
  | tooLongToWrite
  deriving Repr, DecidableEq

namespace Numeral

/-- The most digits that an integer may have. -/
def maxDigits : Nat := 4300

/-- The most characters of a bad integer that its error shows, quotes included. -/
def shownWidth : Nat := 200

end Numeral

/-- The error in words. -/
def NumeralError.message : NumeralError → String
  | .notInteger text base =>
    "invalid literal for int() with base " ++ toString base ++ ": " ++
      String.ofList ((Text.quotedChars text.toList).take Numeral.shownWidth)
  | .notDecimal text => "could not convert string to float: " ++ Text.quoted text
  | .tooLong digits =>
    "Exceeds the limit (" ++ toString Numeral.maxDigits ++
      " digits) for integer string conversion: value has " ++ toString digits ++
      " digits; use sys.set_int_max_str_digits() to increase the limit"
  | .tooLongToWrite =>
    "Exceeds the limit (" ++ toString Numeral.maxDigits ++
      " digits) for integer string conversion; use sys.set_int_max_str_digits() to increase the limit"

namespace Numeral

/-- The written form of an integer, which may have as many digits as can be read. -/
def written (n : Int) : Except NumeralError String :=
  if tenTo maxDigits ≤ n.natAbs then .error .tooLongToWrite else .ok (toString n)

/-- Blanks that may surround a numeral: those of ASCII without the separators, and all others. -/
def isMargin (c : Char) : Bool := Text.isBlank c && !(28 ≤ c.toNat && c.toNat ≤ 31)

/-- A text without the blanks around it. -/
def core (cs : List Char) : List Char := Text.dropEnd isMargin (cs.dropWhile isMargin)

/-- A sign, if there is one, and the rest. -/
def sign : List Char → Bool × List Char
  | '-' :: rest => (true, rest)
  | '+' :: rest => (false, rest)
  | rest => (false, rest)

/-- Digits in groups joined by single underscores: the digit values, whether the run is well formed,
and what follows it. `fresh` tells that a digit must come next. -/
def digitRun (fresh : Bool) : List Char → List Nat × Bool × List Char
  | [] => ([], !fresh, [])
  | c :: rest =>
    match Text.digitValue? c with
    | some d =>
      let (ds, ok, after) := digitRun false rest
      (d :: ds, ok, after)
    | none =>
      if c = '_' then
        if fresh then ([], false, c :: rest) else digitRun true rest
      else ([], !fresh, c :: rest)

/-- The number that decimal digits stand for. -/
def ofDigits (ds : List Nat) : Nat := ds.foldl (fun n d => n * 10 + d) 0

/-- Reads a whole text as an integer. -/
def readInt (s : String) : Except NumeralError Int :=
  let (negative, body) := sign (s.toList.dropWhile isMargin)
  let (ds, ok, after) := digitRun true body
  if !ok then .error (.notInteger s 10)
  -- A numeral that is too long is refused before what follows it is looked at.
  else if maxDigits < ds.length then .error (.tooLong ds.length)
  else if ds.isEmpty || !after.all isMargin then .error (.notInteger s 10)
  else .ok (if negative then -(ofDigits ds : Int) else ofDigits ds)

/-- The letter that may follow a zero in front of the digits of a base. -/
def baseLetter : Nat → Char
  | 2 => 'b'
  | 8 => 'o'
  | _ => 'x'

/-- Digits of a base up to sixteen in groups joined by single underscores. -/
def baseRun (base : Nat) (fresh : Bool) : List Char → List Nat × Bool × List Char
  | [] => ([], !fresh, [])
  | c :: rest =>
    match ((Text.digitValue? c).or (Text.hexValue? c)).filter (· < base) with
    | some d =>
      let (ds, ok, after) := baseRun base false rest
      (d :: ds, ok, after)
    | none =>
      if c = '_' then
        if fresh then ([], false, c :: rest) else baseRun base true rest
      else ([], !fresh, c :: rest)

/-- The digits after a zero and the letter of a base, if they are there; an underscore may follow. -/
def afterBase (base : Nat) : List Char → List Char
  | '0' :: l :: rest =>
    if l.toLower = baseLetter base then (if rest.head? = some '_' then rest.drop 1 else rest)
    else '0' :: l :: rest
  | cs => cs

/-- Reads a whole text as an integer in base two, eight or sixteen. -/
def readInBase (base : Nat) (s : String) : Except NumeralError Int :=
  let (negative, body) := sign (s.toList.dropWhile isMargin)
  let (ds, ok, after) := baseRun base true (afterBase base body)
  if !ok || !after.all isMargin then .error (.notInteger s base)
  else
    let n := ds.foldl (fun n d => n * base + d) 0
    .ok (if negative then -(n : Int) else n)

/-- The words for infinity and for no number, in any case of letters. -/
def readWord? (negative : Bool) (body : List Char) : Option Float :=
  let w := body.map Char.toLower
  if w = "inf".toList || w = "infinity".toList then
    some (Binary64.ofFields negative Binary64.infinityBits)
  else if w = "nan".toList then some (0.0 / 0.0)
  else none

/-- Digits that may be missing: an empty run is well formed here. -/
def optionalRun (cs : List Char) : List Nat × Bool × List Char :=
  match cs with
  | c :: _ => if (Text.digitValue? c).isSome then digitRun true cs else ([], true, cs)
  | [] => ([], true, [])

/-- The exponent at the end of a decimal. -/
def readExponent? : List Char → Option Int
  | [] => some 0
  | c :: rest =>
    if c = 'e' ∨ c = 'E' then
      let (negative, body) := sign rest
      let (ds, ok, after) := digitRun true body
      if ok && after.isEmpty then
        some (if negative then -(ofDigits ds : Int) else ofDigits ds)
      else none
    else none

/-- The digits of a decimal without its sign: whole part, point, fraction, exponent. -/
def readDigits? (body : List Char) : Option (Nat × Int) := do
  let (whole, ok, rest) := optionalRun body
  guard ok
  let (fraction, ok, rest) := match rest with
    | '.' :: r => optionalRun r
    | r => ([], true, r)
  guard (ok && !(whole.isEmpty && fraction.isEmpty))
  let e ← readExponent? rest
  return (ofDigits (whole ++ fraction), e - fraction.length)

/-- Reads a whole text as a decimal. -/
def readFloat (s : String) : Except NumeralError Float :=
  let (negative, body) := sign (core s.toList)
  match readWord? negative body with
  | some x => .ok x
  | none =>
    match readDigits? body with
    | some (digits, e) => .ok (Binary64.ofDecimal negative digits e)
    | none => .error (.notDecimal s)

end Numeral

end Assay
