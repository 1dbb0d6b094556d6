import Assay.Number.Binary64
import Assay.Number.Numeral
import Assay.Text.Base64
import Assay.Text.Case
import Assay.Value
import Assay.Yaml.Cursor

/-!
# Words with a meaning

A plain scalar whose text is a truth value, a number, a date or the empty word stands for that value
(YAML 1.1). Integers may be binary, octal with a leading zero, hexadecimal or in base sixty; digits
may be divided by underscores.
-/

namespace Assay.Yaml

/-- The kinds of value that the text of a scalar may stand for. -/
inductive WordKind where
  | binary
  /-- A lone indicator, which has no value. -/
  | indicator
  | truth
  | float
  | int
  | merge
  | null
  | timestamp
  | default
  | text
  deriving Repr, DecidableEq

namespace Word

/-- Words for truth values, in lower case. -/
def truths : List (String × Bool) :=
  [("yes", true), ("no", false), ("true", true), ("false", false), ("on", true), ("off", false)]

/-- A word in lower case, with a capital letter, or in capitals. -/
def isSpelling (word : String) (cs : List Char) : Bool :=
  let lower := word.toList
  let upper := lower.map Char.toUpper
  cs == lower || cs == upper || cs == upper.take 1 ++ lower.drop 1

/-- Whether a text is a truth value. -/
def isTruth (cs : List Char) : Bool := truths.any fun (w, _) => isSpelling w cs

/-- Digits and underscores. -/
def isDigitOrLine (c : Char) : Bool := c.isDigit || c == '_'

/-- The rest after a sign. -/
def unsigned : List Char → List Char
  | '-' :: rest => rest
  | '+' :: rest => rest
  | cs => cs

/-- Groups of one or two digits below sixty, each after a colon: at least one, and what follows. -/
def sexagesimalTail : Nat → List Char → Option (List Char)
  | 0, cs => some cs
  | bound + 1, cs =>
    match cs with
    | ':' :: a :: b :: rest =>
      if '0' ≤ a && a ≤ '5' && b.isDigit then sexagesimalTail bound rest
      else if a.isDigit then sexagesimalTail bound (b :: rest)
      else none
    | [':', a] => if a.isDigit then some [] else none
    | [':'] => none
    | cs => some cs

/-- Whether digits are followed by groups in base sixty and then by a rest with a property. -/
def isSexagesimal (isHead : Char → Bool) (isTail : List Char → Bool) (cs : List Char) : Bool :=
  match cs with
  | [] => false
  | c :: rest =>
    let after := rest.dropWhile isDigitOrLine
    isHead c && after.headD ' ' == ':' && (sexagesimalTail after.length after).any isTail

/-- An exponent with its sign, up to the end; or nothing. -/
def isExponent : List Char → Bool
  | [] => true
  | e :: s :: d :: rest =>
    (e == 'e' || e == 'E') && (s == '+' || s == '-') && d.isDigit && rest.all Char.isDigit
  | _ => false

/-- Whether a text is a decimal. -/
def isFloat (cs : List Char) : Bool :=
  let body := unsigned cs
  let whole := match body with
    | c :: rest =>
      c.isDigit && match rest.dropWhile isDigitOrLine with
        | '.' :: fraction => isExponent (fraction.dropWhile isDigitOrLine)
        | _ => false
    | [] => false
  let fraction := match cs with
    | '.' :: c :: rest => c.isDigit && isExponent (rest.dropWhile isDigitOrLine)
    | _ => false
  let sixty := isSexagesimal Char.isDigit
    (fun | '.' :: rest => rest.all isDigitOrLine | _ => false) body
  let word := match body with
    | '.' :: rest => isSpelling "inf" rest
    | _ => false
  let noNumber := [".nan", ".NaN", ".NAN"].any fun w => w.toList == cs
  whole || fraction || sixty || word || noNumber

/-- Whether a text is an integer. -/
def isInt (cs : List Char) : Bool :=
  match unsigned cs with
  | ['0'] => true
  | '0' :: 'b' :: c :: rest => (c :: rest).all fun d => d == '0' || d == '1' || d == '_'
  | '0' :: 'x' :: c :: rest => (c :: rest).all fun d => (Text.hexValue? d).isSome || d == '_'
  | '0' :: c :: rest => (c :: rest).all fun d => ('0' ≤ d && d ≤ '7') || d == '_'
  | c :: rest =>
    let head (d : Char) : Bool := '1' ≤ d && d ≤ '9'
    (head c && rest.all isDigitOrLine) || isSexagesimal head List.isEmpty (c :: rest)
  | [] => false

/-! ## Dates -/

/-- One or two digits as a number, and the rest; two if there are two. -/
def shortNumber? : List Char → Option (Nat × List Char)
  | a :: b :: rest =>
    if a.isDigit && b.isDigit then some ((a.toNat - 48) * 10 + (b.toNat - 48), rest)
    else if a.isDigit then some (a.toNat - 48, b :: rest)
    else none
  | [a] => if a.isDigit then some (a.toNat - 48, []) else none
  | [] => none

/-- Two digits as a number, and the rest. -/
def twoDigits? : List Char → Option (Nat × List Char)
  | a :: b :: rest =>
    if a.isDigit && b.isDigit then some ((a.toNat - 48) * 10 + (b.toNat - 48), rest) else none
  | _ => none

/-- The rest after a character. -/
def after? (c : Char) : List Char → Option (List Char)
  | d :: rest => if c = d then some rest else none
  | [] => none

/-- The numbers of a date, and the rest. -/
def datePart? (cs : List Char) : Option ((Nat × Nat × Nat) × List Char) := do
  let (century, cs) ← twoDigits? cs
  let (year, cs) ← twoDigits? cs
  let (month, cs) ← shortNumber? (← after? '-' cs)
  let (day, cs) ← shortNumber? (← after? '-' cs)
  return ((century * 100 + year, month, day), cs)

/-- The numbers of a time of day. -/
structure Clock where
  hour : Nat
  minute : Nat
  second : Nat
  microsecond : Nat
  /-- The offset from UTC in seconds. -/
  offset : Option Int
  deriving Repr

/-- The first six digits of a fraction as millionths. -/
def millionths (ds : List Char) : Nat :=
  Numeral.ofDigits (((ds ++ List.replicate 6 '0').take 6).map fun d => d.toNat - 48)

/-- An offset from UTC up to the end of the text. -/
def zone? (cs : List Char) : Option (Option Int) :=
  match cs.dropWhile fun c => c == ' ' || c == '\t' with
  | [] => if cs.isEmpty then some none else none
  | ['Z'] => some (some 0)
  | s :: rest =>
    if s = '+' ∨ s = '-' then do
      let (hours, rest) ← shortNumber? rest
      let (minutes, rest) ← match rest with
        | [] => some (0, [])
        | rest => do twoDigits? (← after? ':' rest)
      guard rest.isEmpty
      let o : Int := hours * 3600 + minutes * 60
      return some (if s = '-' then -o else o)
    else none

/-- The separator between a date and a time. -/
def afterSeparator? : List Char → Option (List Char)
  | c :: rest =>
    if c = 'T' ∨ c = 't' then some rest
    else if c = ' ' ∨ c = '\t' then some (rest.dropWhile fun d => d == ' ' || d == '\t')
    else none
  | [] => none

/-- The numbers of a time, from the separator to the end of the text. -/
def clockPart? (cs : List Char) : Option Clock := do
  let (hour, cs) ← shortNumber? (← afterSeparator? cs)
  let (minute, cs) ← twoDigits? (← after? ':' cs)
  let (second, cs) ← twoDigits? (← after? ':' cs)
  let (fraction, cs) := match cs with
    | '.' :: rest => (rest.takeWhile Char.isDigit, rest.dropWhile Char.isDigit)
    | cs => ([], cs)
  return { hour, minute, second, microsecond := millionths fraction, offset := ← zone? cs }

/-- The numbers of a date with an optional time. -/
def timestamp? (cs : List Char) : Option ((Nat × Nat × Nat) × Option Clock) := do
  let (date, cs) ← datePart? cs
  if cs.isEmpty then return (date, none) else return (date, some (← clockPart? cs))

/-- Whether a text is a date or a moment; a date alone has two digits for month and day. -/
def isTimestamp (cs : List Char) : Bool :=
  match timestamp? cs with
  | some (_, none) => cs.length == 10
  | some (_, some _) => true
  | none => false

/-- A text without the line feed that may end it. -/
def withoutFinalBreak (cs : List Char) : List Char :=
  if cs.getLast? = some '\n' then cs.dropLast else cs

/-- What a text without a final line feed stands for. -/
def kindOfLine (cs : List Char) : WordKind :=
  if isTruth cs then .truth
  else if isFloat cs then .float
  else if isInt cs then .int
  else if cs = ['<', '<'] then .merge
  else if cs.isEmpty || cs = ['~'] || isSpelling "null" cs then .null
  else if isTimestamp cs then .timestamp
  else if cs = ['='] then .default
  else if cs = ['!'] ∨ cs = ['&'] ∨ cs = ['*'] then .indicator
  else .text

/-- What the text of a scalar without a tag stands for; a final line feed does not count, but alone
it is a text. -/
def kindOf (cs : List Char) : WordKind :=
  if cs = ['\n'] then .text else kindOfLine (withoutFinalBreak cs)

/-! ## Values of words -/

/-- A text as a truth value. -/
def truthOf (cs : List Char) : Except Error Value :=
  match truths.lookup (String.ofList (cs.map Char.toLower)) with
  | some b => .ok (.bool b)
  | none => .error .notTruth

/-- A text as an integer in a base. -/
def inBase (base : Nat) (cs : List Char) : Except Error Int :=
  (Numeral.readInBase base (String.ofList cs)).mapError .numeral

/-- Numbers divided by colons, the last one with weight one and each other one with sixty times the
weight of the next. -/
def inSixties (ns : List Int) : Int := ns.foldl (fun total n => total * 60 + n) 0

/-- The parts of a text between colons. -/
def colonParts : List Char → List (List Char)
  | [] => [[]]
  | ':' :: rest => [] :: colonParts rest
  | c :: rest =>
    match colonParts rest with
    | [] => [[c]]
    | p :: ps => (c :: p) :: ps

/-- A text as an integer. -/
def intOf (text : String) : Except Error Value := do
  let cs := text.toList.filter (· != '_')
  if cs.isEmpty then throw .noText
  let sign : Int := if cs.head? = some '-' then -1 else 1
  let body := unsigned cs
  let n ← match body with
    | [] => throw .noText
    | ['0'] => pure 0
    | '0' :: 'b' :: ds => inBase 2 ds
    | '0' :: 'x' :: ds => inBase 16 ds
    | '0' :: _ => inBase 8 body
    | _ =>
      if body.contains ':' then
        return .int (sign * inSixties (← (colonParts body).mapM fun p =>
          (Numeral.readInt (String.ofList p)).mapError .numeral))
      else (Numeral.readInt (String.ofList body)).mapError .numeral
  return .int (sign * n)

/-- Decimals divided by colons, added from the last one on. The weights are exact until they are
multiplied. -/
def floatSixties (total : Float) (weight : Nat) : List Float → Except Error Float
  | [] => .ok total
  | x :: rest =>
    match Binary64.ofInt? weight with
    | some w => floatSixties (total + x * w) (weight * 60) rest
    | none => .error .tooLarge

/-- A text in the form in which it is read as a decimal. -/
def decimalForm (text : String) : List Char :=
  (Text.toLower (String.ofList (text.toList.filter (· != '_')))).toList

/-- The word for no number. -/
def undefinedWord : List Char := ".nan".toList

/-- Whether a text is the word for no number when it is read as a decimal. -/
def isUndefinedWord (text : String) : Bool := unsigned (decimalForm text) == undefinedWord

/-- A text as a decimal. -/
def floatOf (text : String) : Except Error Value := do
  let cs := decimalForm text
  if cs.isEmpty then throw .noText
  let sign : Float := if cs.head? = some '-' then -1 else 1
  let body := unsigned cs
  let read (p : List Char) : Except Error Float :=
    (Numeral.readFloat (String.ofList p)).mapError .numeral
  if body = ".inf".toList then return .float (sign * Binary64.ofFields false Binary64.infinityBits)
  else if body = undefinedWord then return .float (0.0 / 0.0)
  else if body.contains ':' then
    return .float (sign * (← floatSixties 0 1 (← (colonParts body).mapM read).reverse))
  else return .float (sign * (← read body))

/-- A text in base64 as bytes. -/
def bytesOf (cs : List Char) : Except Error Value :=
  match if cs.all (·.toNat < 0x80) then Base64.decode? cs else none with
  | some bs => .ok (.bytes bs)
  | none => .error .malformed

/-- A text as a date or a moment. -/
def timestampOf (cs : List Char) : Except Error Value := do
  match timestamp? (withoutFinalBreak cs) with
  | none => throw .notDate
  | some ((year, month, day), clock) =>
    match clock with
    | none => return .date (← (Date.of? year month day).mapError .calendar)
    | some k =>
      -- The offset is looked at before the date, and the date before the time.
      if let some o := k.offset then
        if 86400 ≤ o.natAbs then
          let (days, seconds) := Moment.splitSeconds o
          throw (.calendar (.offset days seconds))
      let date ← (Date.of? year month day).mapError .calendar
      return .moment (← (Moment.of? date k.hour k.minute k.second k.microsecond
        k.offset).mapError .calendar)

end Word

end Assay.Yaml
