import Assay.Number.Numeral
import Assay.Number.Shortest
import Assay.Text.Quoted
import Assay.Value

/-!
# Values as text

How a value is shown in messages and previews, and how it becomes a text where a text is wanted: a
text stands for itself, everything else is shown. A value inside itself is shown by dots. An integer
of a document may be too long to be written; `shown?` and `toText?` say so, while `shown` and `toText`
are for values without such integers.
-/

namespace Assay.Value

/-- A part of what is shown: an integer, or anything else. -/
inductive Piece where
  | plain (s : String)
  | number (n : Int)

/-- The text of a part. -/
def Piece.toText : Piece → String
  | .plain s => s
  | .number n => toString n

/-- The text of a part that is not too long. -/
def Piece.toText? : Piece → Except NumeralError String
  | .plain s => .ok s
  | .number n => Numeral.written n

/-- Parts with a comma between them. -/
def listed : List (List Piece) → List Piece
  | [] => []
  | [p] => p
  | p :: rest => p ++ .plain ", " :: listed rest

/-- Parts between brackets. -/
def enclosed (opening closing : String) (parts : List (List Piece)) : List Piece :=
  .plain opening :: listed parts ++ [.plain closing]

/-- Parts of a tuple: one part alone is followed by a comma. -/
def enclosedTuple (parts : List (List Piece)) : List Piece :=
  enclosed "(" (if parts.length = 1 then ",)" else ")") parts

/-- A moment shown by its parts; a trailing zero of seconds or microseconds is left out. -/
def shownMoment (m : Moment) : String :=
  let tail := if m.microsecond ≠ 0 then [m.second, m.microsecond]
    else if m.second ≠ 0 then [m.second] else []
  let numbers := [m.date.year, m.date.month, m.date.day, m.hour, m.minute] ++ tail
  let zone := match m.offset with
    | none => ""
    | some o =>
      if o = 0 then ", tzinfo=datetime.timezone.utc"
      else
        let (days, seconds) := Moment.splitSeconds o
        ", tzinfo=datetime.timezone(" ++ CalendarError.duration days seconds ++ ")"
  "datetime.datetime(" ++ ", ".intercalate (numbers.map toString) ++ zone ++ ")"

/-- A date shown by its parts. -/
def shownDate (d : Date) : String :=
  "datetime.date(" ++ toString d.year ++ ", " ++ toString d.month ++ ", " ++ toString d.day ++ ")"

/-- A value without parts as messages show it. -/
def leafPiece : Value → Piece
  | .null => .plain "None"
  | .bool b => .plain (if b then "True" else "False")
  | .int n => .number n
  | .float x => .plain (Binary64.toText x)
  | .text s => .plain (Text.quoted s)
  | .date d => .plain (shownDate d)
  | .moment m => .plain (shownMoment m)
  | .bytes bs => .plain (Text.quotedBytes bs)
  | .list _ => .plain "[...]"
  | .tuple _ => .plain "(...)"
  | .map _ => .plain "\x7b...\x7d"
  | .set _ => .plain "set()"
  | .ref _ | .looped .. => .plain "..."

/-- A value that refers to cells as messages show it. The cells around it are open; meeting one of
them again is shown by dots. The bound is on the depth. -/
def loopPieces (cells : Array Value) : Nat → List Nat → Value → List Piece
  | 0, _, _ => []
  | bound + 1, around, v =>
    match v with
    | .ref c =>
      let inner := cells.getD c .null
      if around.contains c then [leafPiece inner] else loopPieces cells bound (c :: around) inner
    | .list items => enclosed "[" "]" (items.map (loopPieces cells bound around))
    | .tuple items => enclosedTuple (items.map (loopPieces cells bound around))
    | .map es => enclosed "\x7b" "\x7d" (es.map fun (k, v) =>
        leafPiece k :: .plain ": " :: loopPieces cells bound around v)
    | v => [leafPiece v]

mutual

/-- A value as messages show it, in parts. -/
def pieces : Value → List Piece
  | .list items => enclosed "[" "]" (piecesOfItems items)
  | .tuple items => enclosedTuple (piecesOfItems items)
  | .set [] => [.plain "set()"]
  | .set items => enclosed "\x7b" "\x7d" (piecesOfItems items)
  | .map es => enclosed "\x7b" "\x7d" (piecesOfEntries es)
  -- Every cell is entered once at most, and a tuple may stand between two cells.
  | .looped cells v => loopPieces cells (3 * cells.size + 3) [] v
  | v => [leafPiece v]

/-- The items of a list, each as shown. -/
def piecesOfItems : List Value → List (List Piece)
  | [] => []
  | v :: rest => pieces v :: piecesOfItems rest

/-- The entries of a mapping, each as shown. -/
def piecesOfEntries : List (Value × Value) → List (List Piece)
  | [] => []
  | (k, v) :: rest => (pieces k ++ .plain ": " :: pieces v) :: piecesOfEntries rest

end

/-- A value as messages show it. -/
def shown (v : Value) : String := String.join (v.pieces.map Piece.toText)

/-- A value as messages show it, if no integer in it is too long. -/
def shown? (v : Value) : Except NumeralError String :=
  (v.pieces.mapM Piece.toText?).map String.join

/-- The text that a value is without being shown. -/
def ownText? : Value → Option String
  | .text s => some s
  | .date d => some d.toText
  | .moment m => some (m.toText " ")
  | _ => none

/-- A value as a text. -/
def toText (v : Value) : String := v.ownText?.getD v.shown

/-- A value as a text, if no integer in it is too long. -/
def toText? (v : Value) : Except NumeralError String :=
  match v.ownText? with
  | some s => .ok s
  | none => v.shown?

/-- A value as a text, empty unless it counts as given. -/
def textOrEmpty (v : Value) : String := if v.isTruthy then v.toText else ""

/-- A value as a text, empty unless it counts as given, if no integer in it is too long. -/
def textOrEmpty? (v : Value) : Except NumeralError String :=
  if v.isTruthy then v.toText? else .ok ""

end Assay.Value
