import Assay.Text.Surrogate
import Assay.Yaml.Cursor

/-!
# Scalars of a YAML text

A scalar is written plainly, between single or double quotes, or as a block of lines that is kept or
folded. Each reader starts at the first character of the scalar and yields its text and the cursor
behind it. The readers see one character for each code point; the texts of scalars hold them as texts
do.
-/

namespace Assay.Yaml

/-- A text and the cursor behind it. -/
structure Piece where
  text : List Char
  after : Cursor

/-! ## Plain scalars -/

/-- Whether a plain scalar ends before the character at the cursor. -/
def endsPlain (inFlow : Bool) (ch following : Char) : Bool :=
  endsToken ch ||
    (ch == ':' && (endsToken following || (inFlow && ",[]\x7b\x7d".toList.contains following))) ||
    (inFlow && ",?[]\x7b\x7d".toList.contains ch)

/-- The number of characters up to the end of a run of a plain scalar. -/
def plainRun (inFlow : Bool) : List Char → Nat
  | [] => 0
  | ch :: rest =>
    if endsPlain inFlow ch (rest.headD '\x00') then 0 else plainRun inFlow rest + 1

/-- The breaks after the first line break inside a plain scalar; none at all if a document marker
follows one. -/
def plainBreaks : Nat → Cursor → Option (List Char) × Cursor
  | 0, c => (some [], c)
  | bound + 1, c =>
    if c.here == ' ' then plainBreaks bound c.next
    else if isBreak c.here then
      let (b, c) := c.lineBreak
      if c.atAnyMarker then (none, c)
      else
        let (more, c) := plainBreaks bound c
        (more.map (b ++ ·), c)
    else (some [], c)

/-- White space inside a plain scalar as it counts in its text, and whether it spans lines. It is
empty if the scalar cannot go on. -/
def plainSpace (c : Cursor) : Piece × Bool :=
  let (spaces, c) := c.takeWhile (· == ' ')
  if isBreak c.here then
    let (first, c) := c.lineBreak
    if c.atAnyMarker then (⟨[], c⟩, true)
    else
      match plainBreaks c.rest.length c with
      | (none, c) => (⟨[], c⟩, true)
      | (some more, c) =>
        let folded := if first ≠ ['\n'] then first ++ more
          else if more.isEmpty then [' '] else more
        (⟨folded, c⟩, true)
  else (⟨spaces, c⟩, false)

/-- A plain scalar whose text so far is followed by `space`. The flag tells whether the cursor
behind it has passed a line break. -/
def plainFrom (inFlow : Bool) (indent : Int) (space : List Char) (broken : Bool) :
    Nat → Cursor → Piece × Bool
  | 0, c => (⟨[], c⟩, broken)
  | bound + 1, c =>
    if c.here == '#' then (⟨[], c⟩, broken)
    else
      let n := plainRun inFlow c.rest
      if n = 0 then (⟨[], c⟩, broken)
      else
        let run := c.rest.take n
        let (gap, wrapped) := plainSpace (c.forward n)
        if gap.text.isEmpty || gap.after.here == '#' ||
            (!inFlow && decide ((gap.after.column : Int) < indent)) then
          (⟨space ++ run, gap.after⟩, wrapped)
        else
          let (rest, wrapped) := plainFrom inFlow indent gap.text wrapped bound gap.after
          (⟨space ++ run ++ rest.text, rest.after⟩, wrapped)

/-- A plain scalar inside a collection of the given indentation, and whether the cursor behind it
has passed a line break. -/
def plainScalar (inFlow : Bool) (indent : Int) (c : Cursor) : Piece × Bool :=
  let (p, wrapped) := plainFrom inFlow (indent + 1) [] false c.rest.length c
  (⟨Text.hold p.text, p.after⟩, wrapped)

/-! ## Quoted scalars -/

/-- Characters that stand for themselves after a backslash or for a character of their own. -/
def escapeLetters : List (Char × Char) :=
  [('0', '\x00'), ('a', '\x07'), ('b', '\x08'), ('t', '\t'), ('\t', '\t'), ('n', '\n'),
   ('v', '\x0b'), ('f', '\x0c'), ('r', '\r'), ('e', '\x1b'), (' ', ' '), ('"', '"'),
   ('\\', '\\'), ('/', '/'), ('N', '\u0085'), ('_', '\u00a0'), ('L', '\u2028'), ('P', '\u2029')]

/-- Letters of escapes by number, and how many digits follow them. -/
def escapeWidths : List (Char × Nat) := [('x', 2), ('u', 4), ('U', 8)]

/-- Blank lines and leading white space after a line break inside quotes. -/
def quotedBreaks : Nat → Cursor → Except Error Piece
  | 0, c => .ok ⟨[], c⟩
  | bound + 1, c =>
    if c.atAnyMarker then .error .malformed
    else
      let c := c.skipWhile fun ch => ch == ' ' || ch == '\t'
      if isBreak c.here then do
        let (b, c) := c.lineBreak
        let more ← quotedBreaks bound c
        return ⟨b ++ more.text, more.after⟩
      else .ok ⟨[], c⟩

/-- White space inside quotes: a single line break is a space, further ones stay. -/
def quotedSpace (c : Cursor) : Except Error Piece := do
  let (spaces, c) := c.takeWhile fun ch => ch == ' ' || ch == '\t'
  if c.here == '\x00' then throw .malformed
  if isBreak c.here then
    let (first, c) := c.lineBreak
    let more ← quotedBreaks (c.rest.length + 1) c
    let head := if first ≠ ['\n'] then first else if more.text.isEmpty then [' '] else []
    return ⟨head ++ more.text, more.after⟩
  else return ⟨spaces, c⟩

/-- An escape from after its backslash. -/
def escape (c : Cursor) : Except Error Piece :=
  match escapeLetters.lookup c.here with
  | some ch => .ok ⟨[ch], c.next⟩
  | none =>
    match escapeWidths.lookup c.here with
    | some width =>
      match c.next.hexNumber? width with
      | none => .error .malformed
      | some n =>
        if n < 0x110000 then .ok ⟨Text.ofUnit n, c.next.forward width⟩
        else if n < 0x80000000 then .error .codePoint
        else .error .tooLarge
    | none =>
      if isBreak c.here then
        let after := c.lineBreak.2
        quotedBreaks (after.rest.length + 1) after
      else .error .malformed

/-- The text of a quoted scalar up to its closing quote, and the cursor at the quote. -/
def quotedFrom (double : Bool) : Nat → Cursor → Except Error Piece
  | 0, _ => .error .malformed
  | bound + 1, c =>
    let join (p : Piece) : Except Error Piece := do
      let rest ← quotedFrom double bound p.after
      return ⟨p.text ++ rest.text, rest.after⟩
    let ch := c.here
    if !double && ch == '\'' && c.peek 1 == '\'' then join ⟨['\''], c.forward 2⟩
    else if ch == (if double then '"' else '\'') then .ok ⟨[], c⟩
    else if double && ch == '\\' then do join (← escape c.next)
    else if endsToken ch then do join (← quotedSpace c)
    else join ⟨Text.ofUnit ch.toNat, c.next⟩

/-- A quoted scalar from its opening quote. -/
def quotedScalar (double : Bool) (c : Cursor) : Except Error Piece := do
  let p ← quotedFrom double (c.rest.length + 1) c.next
  return ⟨p.text, p.after.next⟩

/-! ## Block scalars -/

/-- What happens to the line breaks at the end of a block. -/
inductive Chomping where
  | strip
  | clip
  | keep
  deriving Repr, DecidableEq

/-- The header of a block scalar: chomping and indentation in either order. -/
def blockHeader (c : Cursor) : Except Error (Chomping × Option Nat × Cursor) := do
  let chomp (c : Cursor) : Option Chomping × Cursor :=
    if c.here == '+' then (some .keep, c.next)
    else if c.here == '-' then (some .strip, c.next)
    else (none, c)
  let digit (c : Cursor) : Except Error (Option Nat × Cursor) :=
    if c.here == '0' then .error .malformed
    else if c.here.isDigit then .ok (some (c.here.toNat - 48), c.next)
    else .ok (none, c)
  let (first, c) := chomp c
  let (increment, c) ← digit c
  let (second, c) := if first.isNone && increment.isSome then chomp c else (none, c)
  if endsWord c.here then return (((first.or second).getD .clip), increment, c)
  else throw .malformed

/-- Blank lines and spaces before a block whose indentation is not given: the breaks, the greatest
column reached, and the cursor behind them. -/
def blockIndentation (greatest : Nat) : Nat → Cursor → List Char × Nat × Cursor
  | 0, c => ([], greatest, c)
  | bound + 1, c =>
    if c.here == ' ' then
      let c := c.next
      blockIndentation (max greatest c.column) bound c
    else if isBreak c.here then
      let (b, c) := c.lineBreak
      let (more, greatest, c) := blockIndentation greatest bound c
      (b ++ more, greatest, c)
    else ([], greatest, c)

/-- Blank lines before a line of a block, and the cursor at the block's column if the line reaches
it. -/
def blockBreaks (indent : Int) : Nat → Cursor → List Char × Cursor
  | 0, c => ([], c)
  | bound + 1, c =>
    let c := c.skipSpacesTo indent c.rest.length
    if isBreak c.here then
      let (b, c) := c.lineBreak
      let (more, c) := blockBreaks indent bound c
      (b ++ more, c)
    else ([], c)

/-- Whether the cursor is at a line of a block. -/
def atBlockLine (indent : Int) (c : Cursor) : Bool :=
  (c.column : Int) == indent && c.here != '\x00'

/-- The lines of a block from the first one: its text, the break after the last line, the blank
lines after that, and the cursor behind them. -/
def blockLines (folded : Bool) (indent : Int) :
    Nat → Cursor → List Char × List Char × List Char × Cursor
  | 0, c => ([], [], [], c)
  | bound + 1, c =>
    let flush := c.here != ' ' && c.here != '\t'
    let (line, c) := c.takeWhile fun ch => !endsLine ch
    let (lineEnd, c) := c.lineBreak
    let (blank, c) := blockBreaks indent (c.rest.length + 1) c
    if atBlockLine indent c then
      let joined := if folded && lineEnd = ['\n'] && flush && c.here != ' ' && c.here != '\t' then
          (if blank.isEmpty then [' '] else [])
        else lineEnd
      let (text, last, tail, c) := blockLines folded indent bound c
      (line ++ joined ++ blank ++ text, last, tail, c)
    else (line, lineEnd, blank, c)

/-- A block scalar from its indicator, inside a collection of the given indentation. -/
def blockScalar (folded : Bool) (indent : Int) (c : Cursor) : Except Error Piece := do
  let (chomping, increment, c) ← blockHeader c.next
  let c ← c.finishLine
  let least := max 1 (indent + 1)
  let (column, blank, c) := match increment with
    | some n =>
      let column := least + n - 1
      let (blank, c) := blockBreaks column (c.rest.length + 1) c
      (column, blank, c)
    | none =>
      let (blank, greatest, c) := blockIndentation 0 (c.rest.length + 1) c
      (max least greatest, blank, c)
  let (text, last, tail, c) :=
    if atBlockLine column c then
      let (text, last, tail, c) := blockLines folded column (c.rest.length + 1) c
      (blank ++ text, last, tail, c)
    else ([], [], blank, c)
  let whole := match chomping with
    | .strip => text
    | .clip => text ++ last
    | .keep => text ++ last ++ tail
  return ⟨Text.hold whole, c⟩

end Assay.Yaml
