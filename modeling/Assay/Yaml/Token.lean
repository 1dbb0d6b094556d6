import Assay.Text.Utf8
import Assay.Yaml.Scalar

/-!
# Tokens of a YAML text

The text is cut into indicators, scalars and the ends of block collections, which no character marks:
a block ends where a line starts left of its column. A scalar may turn out to be a key only when the
colon after it is read, so its place is remembered, at most one for each level of nesting, and the
key indicator is put in front of it later. Where the text cannot be cut any further, the tokens that
are settled by then come first and the error behind them.
-/

namespace Assay.Yaml

/-- A tag as it is written: a handle, if there is one, and a suffix. -/
structure WrittenTag where
  handle : Option (List Char)
  suffix : List Char
  deriving Repr, DecidableEq

/-- A token. -/
inductive Token where
  | directiveVersion (major : Nat)
  | directiveTag (handle uri : List Char)
  | directiveOther
  | documentStart
  | documentEnd
  | blockSequence
  | blockMapping
  | blockEnd
  | flowSequence
  | flowSequenceEnd
  | flowMapping
  | flowMappingEnd
  | entry
  | flowEntry
  | key
  | value
  | anchor (name : List Char)
  | alias (name : List Char)
  | tag (t : WrittenTag)
  | scalar (text : List Char) (plain : Bool)
  deriving Repr, DecidableEq

/-- A place where a key may turn out to start. -/
structure KeyPlace where
  /-- The number of tokens before it. -/
  position : Nat
  /-- Whether only a key can start there. -/
  required : Bool
  index : Nat
  line : Nat
  column : Nat
  deriving Repr

/-- What is known while tokens are read. -/
structure Scan where
  cursor : Cursor
  /-- Tokens read so far. -/
  tokens : Array Token
  /-- The depth of brackets. -/
  flow : Nat
  /-- The column of the current block, and those of the blocks around it. -/
  indent : Int
  outer : List Int
  /-- Whether a key may start here. -/
  allowKey : Bool
  /-- The remembered places, each with its depth of brackets. -/
  places : List (Nat × KeyPlace)
  deriving Repr

namespace Scan

/-- The state before a text. -/
def start (text : List Char) : Scan :=
  { cursor := .start text, tokens := #[], flow := 0, indent := -1, outer := [], allowKey := true,
    places := [] }

/-- Adds a token. -/
def push (t : Token) (s : Scan) : Scan := { s with tokens := s.tokens.push t }

/-- Puts tokens in front of the token at a position. -/
def insert (position : Nat) (ts : List Token) (s : Scan) : Scan :=
  { s with tokens := ts.reverse.foldl (fun all t => all.insertIdxIfInBounds position t) s.tokens }

/-- Moves the cursor. -/
def moveTo (c : Cursor) (s : Scan) : Scan := { s with cursor := c }

/-! ## Remembered places -/

/-- Forgets the place at the current depth; it must not be one where only a key can start. -/
def forget (s : Scan) : Except Error Scan :=
  match s.places.lookup s.flow with
  | some p =>
    if p.required then .error .malformed
    else .ok { s with places := s.places.filter (·.1 != s.flow) }
  | none => .ok s

/-- Remembers the cursor as a place where a key may start, if one may. -/
def remember (s : Scan) : Except Error Scan := do
  if !s.allowKey then return s
  let required := s.flow == 0 && s.indent == s.cursor.column
  let s ← s.forget
  let place : KeyPlace :=
    ⟨s.tokens.size, required, s.cursor.index, s.cursor.line, s.cursor.column⟩
  return { s with places := s.places ++ [(s.flow, place)] }

/-- Whether a key that starts at a place cannot end at the cursor any more: it must be on one line
and not too long. -/
def isStale (s : Scan) (p : KeyPlace) : Bool :=
  p.line != s.cursor.line || 1024 < s.cursor.index - p.index

/-- Forgets the places that are stale. -/
def forgetStale (s : Scan) : Except Error Scan :=
  if s.places.any fun (_, p) => s.isStale p && p.required then .error .malformed
  else .ok { s with places := s.places.filter fun (_, p) => !s.isStale p }

/-! ## Blocks -/

/-- The innermost block that does not start right of a column, those around it, and how many blocks
end. -/
def unwound (column indent : Int) : List Int → Int × List Int × Nat
  | [] => (indent, [], 0)
  | o :: rest =>
    if column < indent then
      let (indent, outer, n) := unwound column o rest
      (indent, outer, n + 1)
    else (indent, o :: rest, 0)

/-- Ends the blocks that start right of a column. Brackets hold no blocks. -/
def unwind (column : Int) (s : Scan) : Scan :=
  if s.flow ≠ 0 then s
  else
    let (indent, outer, n) := unwound column s.indent s.outer
    { s with indent, outer, tokens := s.tokens ++ Array.replicate n .blockEnd }

/-- Starts a block at a column, if it is right of the current one. -/
def indentTo (column : Nat) (s : Scan) : Bool × Scan :=
  if s.indent < column then (true, { s with indent := column, outer := s.indent :: s.outer })
  else (false, s)

/-- Starts a block at the cursor if it is right of the current one. -/
def openBlock (t : Token) (s : Scan) : Scan :=
  let (opened, s) := s.indentTo s.cursor.column
  if opened then s.push t else s

/-! ## White space between tokens -/

/-- Skips spaces, comments and line breaks. After a break outside brackets a key may start. -/
def skipSpace : Nat → Scan → Scan
  | 0, s => s
  | bound + 1, s =>
    let c := s.cursor.skipSpaces.skipComment
    match c.lineBreak with
    | ([], _) => s.moveTo c
    | (_, c) =>
      skipSpace bound { s with cursor := c, allowKey := s.allowKey || s.flow == 0 }

/-- Skips a byte order mark at the start of the text, and everything between tokens. -/
def toNextToken (s : Scan) : Scan :=
  let s := if s.cursor.index == 0 && s.cursor.here == '\uFEFF' then s.moveTo s.cursor.next else s
  skipSpace (s.cursor.rest.length + 1) s

/-! ## Directives, anchors and tags -/

/-- The number at the cursor. -/
def number (c : Cursor) : Except Error (Nat × Cursor) :=
  match c.takeWhile Char.isDigit with
  | ([], _) => .error .malformed
  | (ds, c) =>
    if Numeral.maxDigits < ds.length then .error (.numeral (.tooLong ds.length))
    else .ok (Numeral.ofDigits (ds.map fun d => d.toNat - 48), c)

/-- The bytes of consecutive percent escapes, and the cursor behind them. -/
def percentBytes : Nat → Cursor → Except Error (List UInt8 × Cursor)
  | 0, c => .ok ([], c)
  | bound + 1, c =>
    if c.here == '%' then
      match c.next.hexNumber? 2 with
      | none => .error .malformed
      | some n => do
        let (bytes, after) ← percentBytes bound (c.forward 3)
        return (UInt8.ofNat n :: bytes, after)
    else .ok ([], c)

/-- Characters that may stand in a tag. -/
def isUriChar (c : Char) : Bool := c.isAlphanum || "-;/?:@&=+$,_.!~*'()[]".toList.contains c

/-- The parts of a tag up to a character that cannot stand in one. -/
def uriParts : Nat → Cursor → Except Error (List Char × Cursor)
  | 0, c => .ok ([], c)
  | bound + 1, c =>
    if c.here == '%' then do
      let (bytes, c) ← percentBytes c.rest.length c
      match Utf8.decode bytes with
      | .error _ => throw .malformed
      | .ok s =>
        let (more, c) ← uriParts bound c
        return (s.toList ++ more, c)
    else if isUriChar c.here then do
      let (more, after) ← uriParts bound c.next
      return (c.here :: more, after)
    else .ok ([], c)

/-- A tag from its first character; it is not empty. -/
def uri (c : Cursor) : Except Error (List Char × Cursor) := do
  let (cs, after) ← uriParts c.rest.length c
  if after.index == c.index then throw .malformed
  return (cs, after)

/-- The handle of a tag: an exclamation mark, or a name between two. -/
def handle (c : Cursor) : Except Error (List Char × Cursor) :=
  if c.here != '!' then .error .malformed
  else if c.peek 1 == ' ' then .ok (['!'], c.next)
  else
    let (name, after) := c.next.takeWhile isNameChar
    if after.here == '!' then .ok ('!' :: name ++ ['!'], after.next)
    else .error .malformed

/-- A directive from its percent sign. -/
def directive (c : Cursor) : Except Error (Token × Cursor) := do
  let (name, c) := c.next.takeWhile isNameChar
  if name.isEmpty || !endsWord c.here then throw .malformed
  if String.ofList name = "YAML" then
    let (major, c) ← number c.skipSpaces
    if c.here != '.' then throw .malformed
    let (_, c) ← number c.next
    if !endsWord c.here then throw .malformed
    return (.directiveVersion major, ← c.finishLine)
  else if String.ofList name = "TAG" then
    let (h, c) ← handle c.skipSpaces
    if c.here != ' ' then throw .malformed
    let (u, c) ← uri c.skipSpaces
    if !endsWord c.here then throw .malformed
    return (.directiveTag h u, ← c.finishLine)
  else
    let c := c.skipWhile fun ch => !endsLine ch
    return (.directiveOther, ← c.finishLine)

/-- The name of an anchor or alias from its indicator. -/
def anchorName (c : Cursor) : Except Error (List Char × Cursor) :=
  match c.next.takeWhile isNameChar with
  | ([], _) => .error .malformed
  | (name, c) =>
    if endsToken c.here || "?:,]\x7d%@`".toList.contains c.here then .ok (name, c)
    else .error .malformed

/-- Whether an exclamation mark comes before the end of a word. -/
def hasHandle (cs : List Char) : Bool := (cs.takeWhile fun ch => !endsWord ch).contains '!'

/-- A tag from its exclamation mark. -/
def writtenTag (c : Cursor) : Except Error (WrittenTag × Cursor) := do
  let (t, c) ←
    if c.peek 1 == '<' then do
      let (u, c) ← uri (c.forward 2)
      if c.here != '>' then throw .malformed
      pure (WrittenTag.mk none u, c.next)
    else if endsToken (c.peek 1) then pure (WrittenTag.mk none ['!'], c.next)
    else if hasHandle (c.rest.drop 1) then do
      let (h, c) ← handle c
      let (u, c) ← uri c
      pure (WrittenTag.mk (some h) u, c)
    else do
      let (u, c) ← uri c.next
      pure (WrittenTag.mk (some ['!']) u, c)
  if endsWord c.here then return (t, c) else throw .malformed

/-! ## One token -/

/-- Adds a one-character token. -/
def take (t : Token) (s : Scan) : Scan := (s.moveTo s.cursor.next).push t

/-- A document marker. -/
def marker (t : Token) (s : Scan) : Except Error Scan := do
  let s ← (s.unwind (-1)).forget
  return ({ s with allowKey := false, cursor := s.cursor.forward 3 } : Scan).push t

/-- An opening bracket. -/
def openFlow (t : Token) (s : Scan) : Except Error Scan := do
  let s ← s.remember
  return { s with flow := s.flow + 1, allowKey := true }.take t

/-- A closing bracket. -/
def closeFlow (t : Token) (s : Scan) : Except Error Scan := do
  let s ← s.forget
  return { s with flow := s.flow - 1, allowKey := false }.take t

/-- The indicator of a list item. -/
def listItem (s : Scan) : Except Error Scan := do
  if s.flow == 0 && !s.allowKey then throw .malformed
  let s := if s.flow == 0 then s.openBlock .blockSequence else s
  let s ← ({ s with allowKey := true } : Scan).forget
  return s.take .entry

/-- The indicator of a key. -/
def explicitKey (s : Scan) : Except Error Scan := do
  if s.flow == 0 && !s.allowKey then throw .malformed
  let s := if s.flow == 0 then s.openBlock .blockMapping else s
  let s ← ({ s with allowKey := s.flow == 0 } : Scan).forget
  return s.take .key

/-- The colon before a value. What was remembered at this depth is a key. -/
def valueMark (s : Scan) : Except Error Scan := do
  match s.places.lookup s.flow with
  | some p =>
    let s : Scan := { s with places := s.places.filter (·.1 != s.flow), allowKey := false }
    let (opened, s) := if s.flow == 0 then s.indentTo p.column else (false, s)
    let front := if opened then [Token.blockMapping, .key] else [.key]
    return (s.insert p.position front).take .value
  | none =>
    if s.flow == 0 && !s.allowKey then throw .malformed
    let s := if s.flow == 0 then s.openBlock .blockMapping else s
    let s ← ({ s with allowKey := s.flow == 0 } : Scan).forget
    return s.take .value

/-- A token that may be part of a key. -/
def keyPart (read : Cursor → Except Error (Token × Cursor)) (s : Scan) : Except Error Scan := do
  let s ← s.remember
  let (t, c) ← read s.cursor
  return ({ s with allowKey := false, cursor := c } : Scan).push t

/-- A block scalar. -/
def block (folded : Bool) (s : Scan) : Except Error Scan := do
  let s ← ({ s with allowKey := true } : Scan).forget
  let p ← blockScalar folded s.indent s.cursor
  return (s.moveTo p.after).push (.scalar p.text false)

/-- A plain scalar. -/
def plain (s : Scan) : Except Error Scan := do
  let s ← s.remember
  let (p, broken) := plainScalar (s.flow != 0) s.indent s.cursor
  return ({ s with allowKey := broken, cursor := p.after } : Scan).push (.scalar p.text true)

/-- Characters that cannot start a plain scalar without a condition. -/
def isIndicator (c : Char) : Bool := "-?:,[]\x7b\x7d#&*!|>'\"%@`".toList.contains c

/-- Whether a plain scalar starts at the cursor. -/
def startsPlain (s : Scan) : Bool :=
  let ch := s.cursor.here
  (!endsToken ch && !isIndicator ch) ||
    (!endsToken (s.cursor.peek 1) && (ch == '-' || (s.flow == 0 && (ch == '?' || ch == ':'))))

/-- Reads the token at the cursor, which is not at the end of the text. -/
def token (s : Scan) : Except Error Scan :=
  let c := s.cursor
  let ch := c.here
  let separated := endsToken (c.peek 1)
  if ch == '%' && c.column == 0 then do
    let s ← (s.unwind (-1)).forget
    let (t, c) ← directive s.cursor
    return ({ s with allowKey := false, cursor := c } : Scan).push t
  else if c.column == 0 && c.atMarker '-' then s.marker .documentStart
  else if c.column == 0 && c.atMarker '.' then s.marker .documentEnd
  else if ch == '[' then s.openFlow .flowSequence
  else if ch == '\x7b' then s.openFlow .flowMapping
  else if ch == ']' then s.closeFlow .flowSequenceEnd
  else if ch == '\x7d' then s.closeFlow .flowMappingEnd
  else if ch == ',' then do
    let s ← ({ s with allowKey := true } : Scan).forget
    return s.take .flowEntry
  else if ch == '-' && separated then s.listItem
  else if ch == '?' && (s.flow != 0 || separated) then s.explicitKey
  else if ch == ':' && (s.flow != 0 || separated) then s.valueMark
  else if ch == '*' then s.keyPart fun c => do
    let (name, c) ← anchorName c
    return (.alias name, c)
  else if ch == '&' then s.keyPart fun c => do
    let (name, c) ← anchorName c
    return (.anchor name, c)
  else if ch == '!' then s.keyPart fun c => do
    let (t, c) ← writtenTag c
    return (.tag t, c)
  else if ch == '|' && s.flow == 0 then s.block false
  else if ch == '>' && s.flow == 0 then s.block true
  else if ch == '\'' || ch == '"' then s.keyPart fun c => do
    let p ← quotedScalar (ch == '"') c
    return (.scalar p.text false, p.after)
  else if s.startsPlain then s.plain
  else .error .malformed

/-- The state behind the next token, or behind the last one at the end of the text; the flag tells
whether the text goes on. -/
def advance (s : Scan) : Except Error (Scan × Bool) := do
  let s ← s.toNextToken.forgetStale
  let s := s.unwind s.cursor.column
  if s.cursor.rest.isEmpty then return (← (s.unwind (-1)).forget, false)
  else return (← s.token, true)

/-- The number of tokens that nothing can be put in front of any more: those before the first place
where a key may turn out to start. -/
def settled (s : Scan) : Nat :=
  (s.places.filter fun (_, p) => !s.isStale p).foldl (fun n (_, p) => min n p.position) s.tokens.size

end Scan

/-- The tokens of a text, and why there are no more. -/
structure Stream where
  tokens : List Token
  failure : Option Error

/-- All tokens from a state on. The bound is on the number of tokens that characters mark. -/
def Stream.ofScan : Nat → Scan → Stream
  | 0, s => ⟨s.tokens.toList, some .malformed⟩
  | bound + 1, s =>
    match s.advance with
    | .ok (s, true) => ofScan bound s
    | .ok (s, false) => ⟨s.tokens.toList, none⟩
    | .error e => ⟨s.tokens.toList.take s.settled, some e⟩

/-- Code points that a text may hold. -/
def isPermitted (n : Nat) : Bool :=
  n == 9 || n == 10 || n == 13 || (0x20 ≤ n && n ≤ 0x7E) || n == 0x85 ||
    (0xA0 ≤ n && n ≤ 0xD7FF) || (0xE000 ≤ n && n ≤ 0xFFFD) || 0x10000 ≤ n

/-- The tokens of a text. -/
def Stream.ofText (text : List Char) : Stream :=
  let units := Text.units text
  if units.all isPermitted then ofScan (units.length + 1) (Scan.start (units.map Char.ofNat))
  else ⟨[], some .malformed⟩

end Assay.Yaml
