import Assay.Calendar
import Assay.Number.Numeral
import Assay.Text.Hex

/-!
# A place in a YAML text

The structure of a YAML text depends on columns and lines, so a cursor counts them while it moves.
The end of the text reads as the character U+0000, which no text may hold.
-/

namespace Assay.Yaml

/-- Why a text is not a document. -/
inductive Error where
  /-- The text breaks a rule of the syntax, or its nodes cannot be put together. -/
  | malformed
  | numeral (e : NumeralError)
  | calendar (e : CalendarError)
  /-- An escape names no code point. -/
  | codePoint
  /-- A number is too large for its form. -/
  | tooLarge
  /-- A tag asks for a truth value, and the word is none. -/
  | notTruth
  /-- A tag asks for a number, and there is no text. -/
  | noText
  /-- A tag asks for a date, and the text is none. -/
  | notDate
  /-- A tag asks for a date, and a mapping stands there. -/
  | notText
  deriving Repr, DecidableEq

/-- A place in a text: what follows it, how many characters precede it, its line and column. -/
structure Cursor where
  rest : List Char
  index : Nat
  line : Nat
  column : Nat
  deriving Repr

/-- A line break. -/
def isBreak (c : Char) : Bool :=
  c == '\n' || c == '\r' || c == '\u0085' || c == '\u2028' || c == '\u2029'

/-- A line break or the end of the text. -/
def endsLine (c : Char) : Bool := c == '\x00' || isBreak c

/-- A space, a line break or the end of the text. -/
def endsWord (c : Char) : Bool := c == ' ' || endsLine c

/-- A space, a tab, a line break or the end of the text. -/
def endsToken (c : Char) : Bool := c == '\t' || endsWord c

/-- A letter, a digit, a hyphen or an underscore, in ASCII. -/
def isNameChar (c : Char) : Bool := c.isAlphanum || c == '-' || c == '_'

namespace Cursor

/-- The start of a text. -/
def start (text : List Char) : Cursor := ⟨text, 0, 0, 0⟩

/-- The character `k` places further on. -/
def peek (c : Cursor) (k : Nat) : Char := c.rest.getD k '\x00'

/-- The character at the cursor. -/
def here (c : Cursor) : Char := c.peek 0

/-- The cursor behind one character. A carriage return before a line feed ends no line, and a byte
order mark takes no column. -/
def next (c : Cursor) : Cursor :=
  match c.rest with
  | [] => c
  | ch :: rest =>
    let ends := isBreak ch && !(ch == '\r' && rest.headD '\x00' == '\n')
    if ends then ⟨rest, c.index + 1, c.line + 1, 0⟩
    else ⟨rest, c.index + 1, c.line, if ch == '\uFEFF' then c.column else c.column + 1⟩

/-- The cursor behind some characters. -/
def forward : Nat → Cursor → Cursor
  | 0, c => c
  | n + 1, c => forward n c.next

/-- The characters from the cursor on that a predicate holds of, and the cursor behind them. -/
def takeWhile (p : Char → Bool) (c : Cursor) : List Char × Cursor :=
  let cs := c.rest.takeWhile p
  (cs, c.forward cs.length)

/-- The cursor behind all characters that a predicate holds of. -/
def skipWhile (p : Char → Bool) (c : Cursor) : Cursor := (c.takeWhile p).2

/-- The cursor behind spaces. -/
def skipSpaces (c : Cursor) : Cursor := c.skipWhile (· == ' ')

/-- The cursor behind a comment, if one starts here. -/
def skipComment (c : Cursor) : Cursor :=
  if c.here == '#' then c.skipWhile fun ch => !endsLine ch else c

/-- The cursor behind spaces, but not beyond a column. -/
def skipSpacesTo (column : Int) : Nat → Cursor → Cursor
  | 0, c => c
  | bound + 1, c =>
    if (c.column : Int) < column && c.here == ' ' then skipSpacesTo column bound c.next else c

/-- A line break as it counts in text, and the cursor behind it; nothing if there is none. The
separators of lines and paragraphs stay as they are, every other break is a line feed. -/
def lineBreak (c : Cursor) : List Char × Cursor :=
  if c.here == '\r' && c.peek 1 == '\n' then (['\n'], c.forward 2)
  else if c.here == '\r' || c.here == '\n' || c.here == '\u0085' then (['\n'], c.next)
  else if c.here == '\u2028' || c.here == '\u2029' then ([c.here], c.next)
  else ([], c)

/-- Whether a document marker made of three equal characters stands here. -/
def atMarker (mark : Char) (c : Cursor) : Bool :=
  c.here == mark && c.peek 1 == mark && c.peek 2 == mark && endsToken (c.peek 3)

/-- Whether any document marker stands here. -/
def atAnyMarker (c : Cursor) : Bool := c.atMarker '-' || c.atMarker '.'

/-- Spaces and comment up to the end of the line, which must end there, and the break. -/
def finishLine (c : Cursor) : Except Error Cursor :=
  let c := c.skipSpaces.skipComment
  if endsLine c.here then .ok c.lineBreak.2 else .error .malformed

/-- As many hexadecimal digits as asked for, as a number. -/
def hexNumber? (c : Cursor) (count : Nat) : Option Nat :=
  ((List.range count).mapM fun k => Text.hexValue? (c.peek k)).map
    fun ds => ds.foldl (fun n d => n * 16 + d) 0

end Cursor

end Assay.Yaml
