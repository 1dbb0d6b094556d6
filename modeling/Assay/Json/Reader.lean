import Assay.Number.Numeral
import Assay.Text.Hex
import Assay.Text.Surrogate
import Assay.Value

/-!
# Reading JSON

The reader follows RFC 8259 and admits the words `NaN`, `Infinity` and `-Infinity`. What is wrong
with a text is a reason and the offset at which the reader noticed; the message adds line and column.
Every step returns the rest of the text, and the offset of a rest is the length of what lies before.
-/

namespace Assay.Json

/-- What the reader found missing or wrong. -/
inductive Reason where
  | byteOrderMark
  | value
  | extraData
  | propertyName
  | colon
  | comma
  | controlCharacter
  | unterminatedString
  | escape
  | unicodeEscape
  deriving Repr, DecidableEq

/-- The reason in words. -/
def Reason.message : Reason → String
  | .byteOrderMark => "Unexpected UTF-8 BOM (decode using utf-8-sig)"
  | .value => "Expecting value"
  | .extraData => "Extra data"
  | .propertyName => "Expecting property name enclosed in double quotes"
  | .colon => "Expecting ':' delimiter"
  | .comma => "Expecting ',' delimiter"
  | .controlCharacter => "Invalid control character at"
  | .unterminatedString => "Unterminated string starting at"
  | .escape => "Invalid \\escape"
  | .unicodeEscape => "Invalid \\uXXXX escape"

/-- A place in a text: its offset, and its line and column from one. -/
structure Place where
  offset : Nat
  line : Nat
  column : Nat
  deriving Repr, DecidableEq

/-- The place behind some characters of a text: lines end at line feeds only. -/
def placeOf (text : List Char) (offset : Nat) : Place :=
  let before := text.take offset
  { offset := Text.size before
    line := before.count '\n' + 1
    column := Text.size (before.reverse.takeWhile (· != '\n')).reverse + 1 }

/-- Why a text is not a document. -/
inductive Error where
  | malformed (reason : Reason) (place : Place)
  | numeral (e : NumeralError)
  deriving Repr, DecidableEq

/-- The error in words. -/
def Error.message : Error → String
  | .malformed reason place =>
    reason.message ++ ": line " ++ toString place.line ++ " column " ++ toString place.column ++
      " (char " ++ toString place.offset ++ ")"
  | .numeral e => e.message

/-- A failed step: a reason, and the rest of the text from where the reader noticed. -/
inductive Stop where
  | at (reason : Reason) (rest : List Char)
  | numeral (e : NumeralError)

/-- White space between tokens. -/
def isSpace (c : Char) : Bool := c == ' ' || c == '\t' || c == '\n' || c == '\r'

/-- The rest after white space. -/
def skip (cs : List Char) : List Char := cs.dropWhile isSpace

/-- Four hexadecimal digits as a code unit. -/
def unit? : List Char → Option (Nat × List Char)
  | a :: b :: c :: d :: rest => do
    let w ← Text.hexValue? a
    let x ← Text.hexValue? b
    let y ← Text.hexValue? c
    let z ← Text.hexValue? d
    return (((w * 16 + x) * 16 + y) * 16 + z, rest)
  | _ => none

/-- The character of a one-letter escape. -/
def letterEscape? : Char → Option Char
  | '"' => some '"'
  | '\\' => some '\\'
  | '/' => some '/'
  | 'b' => some '\x08'
  | 'f' => some '\x0c'
  | 'n' => some '\n'
  | 'r' => some '\r'
  | 't' => some '\t'
  | _ => none

/-- Whether a unit is the first half of a pair. -/
def isHigh (u : Nat) : Bool := 0xD800 ≤ u && u ≤ 0xDBFF

/-- Whether a unit is the second half of a pair. -/
def isLow (u : Nat) : Bool := 0xDC00 ≤ u && u ≤ 0xDFFF

/-- A string from after its opening quote, which stands at the start of `opening`. The bound is on
the number of characters and escapes. -/
def readString (opening : List Char) : Nat → List Char → Except Stop (List Char × List Char)
  | 0, _ => .error (.at .unterminatedString opening)
  | _, [] => .error (.at .unterminatedString opening)
  | _ + 1, '"' :: rest => .ok ([], rest)
  | bound + 1, '\\' :: rest =>
    match rest with
    | [] => .error (.at .unterminatedString opening)
    | 'u' :: digits =>
      -- A text that ends with the fourth digit could not hold the closing quote.
      if digits.length ≤ 4 then .error (.at .unicodeEscape rest)
      else match unit? digits with
        | none => .error (.at .unicodeEscape rest)
        | some (high, after) => do
          match isHigh high, after with
          | true, '\\' :: 'u' :: more =>
            if more.length ≤ 4 then
              let (cs, out) ← readString opening bound after
              return (Text.ofUnit high ++ cs, out)
            else match unit? more with
              | none => throw (.at .unicodeEscape ('u' :: more))
              | some (low, out) =>
                if isLow low then
                  let (cs, out) ← readString opening bound out
                  let unit := 0x10000 + (high - 0xD800) * 0x400 + (low - 0xDC00)
                  return (Text.ofUnit unit ++ cs, out)
                else
                  let (cs, out) ← readString opening bound after
                  return (Text.ofUnit high ++ cs, out)
          | _, _ =>
            let (cs, out) ← readString opening bound after
            return (Text.ofUnit high ++ cs, out)
    | c :: after =>
      match letterEscape? c with
      | none => .error (.at .escape ('\\' :: rest))
      | some e => do
        let (cs, out) ← readString opening bound after
        return (e :: cs, out)
  | bound + 1, c :: rest =>
    if c.toNat < 0x20 then .error (.at .controlCharacter (c :: rest))
    else do
      let (cs, out) ← readString opening bound rest
      return (c :: cs, out)

/-- A string from its opening quote, which is the first character of `quote`. -/
def stringAt (quote : List Char) : Except Stop (String × List Char) := do
  let (cs, out) ← readString quote quote.length (quote.drop 1)
  return (String.ofList cs, out)

/-- The digits of ASCII at the start of a text, and the rest. -/
def digitsOf (cs : List Char) : List Char × List Char := cs.span Char.isDigit

/-- The number that digits stand for. -/
def numberOf (cs : List Char) : Nat := cs.foldl (fun n c => n * 10 + (c.toNat - 48)) 0

/-- The fraction after a whole part: it needs a digit. -/
def fractionOf : List Char → List Char × List Char
  | '.' :: rest =>
    match digitsOf rest with
    | ([], _) => ([], '.' :: rest)
    | (ds, after) => (ds, after)
  | cs => ([], cs)

/-- The exponent after a number, if it is complete. -/
def exponentOf? (cs : List Char) : Option (Int × List Char) :=
  match cs with
  | [] => none
  | e :: rest =>
    if e = 'e' ∨ e = 'E' then
      let (negative, body) := Numeral.sign rest
      match digitsOf body with
      | ([], _) => none
      | (ds, after) => some (if negative then -(numberOf ds : Int) else numberOf ds, after)
    else none

/-- A number at the start of a text; without one the value is missing there. -/
def numberAt (cs : List Char) : Except Stop (Value × List Char) :=
  let (negative, body) := match cs with
    | '-' :: rest => (true, rest)
    | rest => (false, rest)
  let (whole, rest) := match body with
    | '0' :: rest => (['0'], rest)
    | _ => digitsOf body
  if whole.isEmpty then .error (.at .value cs)
  else
    let (fraction, afterFraction) := fractionOf rest
    match fraction, exponentOf? afterFraction with
    | [], none =>
      if Numeral.maxDigits < whole.length then .error (.numeral (.tooLong whole.length))
      else .ok (.int (if negative then -(numberOf whole : Int) else numberOf whole), rest)
    | fraction, exponent =>
      let (e, after) := exponent.getD (0, afterFraction)
      .ok (.float (Binary64.ofDecimal negative (numberOf (whole ++ fraction))
        (e - fraction.length)), after)

/-- The rest after a word, if the text starts with it. -/
def afterWord? (word : String) (cs : List Char) : Option (List Char) :=
  if word.toList.isPrefixOf cs then some (cs.drop word.length) else none

/-- Words that stand for a value. -/
def words : List (String × Value) :=
  [("null", .null), ("true", .bool true), ("false", .bool false),
   ("NaN", .float (0.0 / 0.0)), ("Infinity", .float (1.0 / 0.0)), ("-Infinity", .float (-1.0 / 0.0))]

/-- A word at the start of a text. -/
def wordAt? (cs : List Char) : Option (Value × List Char) :=
  words.findSome? fun (w, v) => (afterWord? w cs).map fun rest => (v, rest)

mutual

/-- A value at the start of a text. The bound is on the number of tokens. -/
def valueAt : Nat → List Char → Except Stop (Value × List Char)
  | 0, cs => .error (.at .value cs)
  | bound + 1, cs =>
    match cs with
    | '"' :: _ => do
      let (s, rest) ← stringAt cs
      return (.text s, rest)
    | '\x7b' :: rest =>
      match skip rest with
      | '\x7d' :: after => .ok (.map [], after)
      | inside => do
        let (es, after) ← membersAt bound inside
        return (.ofEntries es, after)
    | '[' :: rest =>
      match skip rest with
      | ']' :: after => .ok (.list [], after)
      | inside => do
        let (items, after) ← itemsAt bound inside
        return (.list items, after)
    | _ =>
      match wordAt? cs with
      | some found => .ok found
      | none => numberAt cs

/-- The members of an object, from the name of the first. -/
def membersAt : Nat → List Char → Except Stop (List (Value × Value) × List Char)
  | 0, cs => .error (.at .propertyName cs)
  | bound + 1, cs =>
    match cs with
    | '"' :: _ => do
      let (name, rest) ← stringAt cs
      match skip rest with
      | ':' :: rest =>
        let (v, rest) ← valueAt bound (skip rest)
        match skip rest with
        | '\x7d' :: rest => return ([(.text name, v)], rest)
        | ',' :: rest =>
          let (more, rest) ← membersAt bound (skip rest)
          return ((.text name, v) :: more, rest)
        | other => throw (.at .comma other)
      | other => throw (.at .colon other)
    | _ => .error (.at .propertyName cs)

/-- The items of an array, from the first. -/
def itemsAt : Nat → List Char → Except Stop (List Value × List Char)
  | 0, cs => .error (.at .value cs)
  | bound + 1, cs => do
    let (v, rest) ← valueAt bound cs
    match skip rest with
    | ']' :: rest => return ([v], rest)
    | ',' :: rest =>
      let (more, rest) ← itemsAt bound (skip rest)
      return (v :: more, rest)
    | other => throw (.at .comma other)

end

/-- The error of a failed step in a text. -/
def Stop.toError (text : List Char) : Stop → Error
  | .at reason rest => .malformed reason (placeOf text (text.length - rest.length))
  | .numeral e => .numeral e

/-- Reads a whole text as one value. -/
def read (s : String) : Except Error Value :=
  let text := s.toList
  match text with
  | '\uFEFF' :: _ => .error (.malformed .byteOrderMark (placeOf text 0))
  | _ =>
    match valueAt (text.length + 1) (skip text) with
    | .error stop => .error (stop.toError text)
    | .ok (v, rest) =>
      match skip rest with
      | [] => .ok v
      | extra => .error ((Stop.at .extraData extra).toError text)

end Assay.Json
