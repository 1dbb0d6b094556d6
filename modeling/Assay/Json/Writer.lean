import Assay.Fault

/-!
# Writing JSON

A document has one written form for each style: keys in ascending order, texts by their code points
and numbers by their size, either on lines of their own with a fixed indentation or all on one line.
`NaN` and the infinities are written as words.
-/

namespace Assay.Json

/-- How a document is laid out. -/
structure Style where
  /-- Spaces for each level of nesting; none keeps the document on one line. -/
  indent : Option Nat
  /-- Whether every character outside ASCII is escaped. -/
  ascii : Bool
  /-- What stands between items on one line. -/
  itemGap : String
  /-- What stands between a key and its value. -/
  keyGap : String

/-- The layout of files: two spaces, characters as they are. -/
def Style.file : Style := ⟨some 2, false, ",", ": "⟩

/-- The layout of values inside messages: one line, ASCII. -/
def Style.inline : Style := ⟨none, true, ", ", ": "⟩

/-- The layout with nothing between tokens: one line, ASCII. -/
def Style.dense : Style := ⟨none, true, ",", ":"⟩

/-- A code unit escape. -/
def unitEscape (u : Nat) : List Char := '\\' :: 'u' :: Text.hex 4 u

/-- A code point as one or two code unit escapes. -/
def codePointEscape (n : Nat) : List Char :=
  if n < 0x10000 then unitEscape n
  else unitEscape (0xD800 + (n - 0x10000) / 0x400) ++ unitEscape (0xDC00 + (n - 0x10000) % 0x400)

/-- One code point inside a string. -/
def stringUnit (ascii : Bool) (u : Nat) : List Char :=
  match Char.ofNat u with
  | '"' => ['\\', '"']
  | '\\' => ['\\', '\\']
  | '\n' => ['\\', 'n']
  | '\r' => ['\\', 'r']
  | '\t' => ['\\', 't']
  | '\x0c' => ['\\', 'f']
  | '\x08' => ['\\', 'b']
  | _ =>
    if u < 0x20 then unitEscape u
    else if ascii && 0x7E < u then codePointEscape u
    else Text.ofUnit u

/-- A string between quotes. -/
def string (ascii : Bool) (s : String) : String :=
  "\"" ++ String.ofList ((Text.units s.toList).flatMap (stringUnit ascii)) ++ "\""

/-- A double; words stand for what is not a finite number. -/
def float (x : Float) : String :=
  match Binary64.magnitude x with
  | .undefined => "NaN"
  | .infinite negative => if negative then "-Infinity" else "Infinity"
  | .finite .. => Binary64.toText x

/-- The text of a key; only texts, numbers, truth values and null have one. -/
def keyText : Value → Except Fault String
  | .text s => .ok s
  | .null => .ok "null"
  | .bool b => .ok (if b then "true" else "false")
  | .int n => (Numeral.written n).mapError .numeral
  | .float x => .ok (float x)
  | _ => .error .wrongKind

/-- Brackets around items, on lines of their own if the style says so. -/
def enclose (style : Style) (depth : Nat) (opening closing : String) (items : List String) :
    String :=
  if items.isEmpty then opening ++ closing
  else match style.indent with
    | none => opening ++ style.itemGap.intercalate items ++ closing
    | some width =>
      let newline (d : Nat) := "\n" ++ String.ofList (List.replicate (width * d) ' ')
      opening ++ newline (depth + 1) ++
        (style.itemGap ++ newline (depth + 1)).intercalate items ++ newline depth ++ closing

/-- Whether two keys can be compared: both are texts or both are numbers. -/
def comparable (a b : Value) : Bool :=
  match a, b with
  | .text _, .text _ => true
  | a, b => a.quantity?.isSome && b.quantity?.isSome

/-- Whether a key comes before another one that it can be compared with. -/
def keyBefore (a b : Value) : Bool :=
  match a, b with
  | .text a, .text b => Text.before a b
  | a, b =>
    match a.quantity?, b.quantity? with
    | some x, some y => x.less y
    | _, _ => false

/-- Fields in ascending order of their keys, all of which must be comparable. -/
def sortFields (fields : List (Value × String)) : Except Fault (List (Value × String)) :=
  match fields with
  | [] => .ok []
  | f :: rest =>
    if rest.all fun g => comparable f.1 g.1 then
      .ok (fields.mergeSort fun a b => !keyBefore b.1 a.1)
    else .error .wrongKind

/-- A key and a rendered value as they stand in an object. -/
def member (style : Style) (field : Value × String) : Except Fault String := do
  return string style.ascii (← keyText field.1) ++ style.keyGap ++ field.2

mutual

/-- A value nested `depth` levels deep. A value that no document can hold is a fault. -/
def render (style : Style) (depth : Nat) : Value → Except Fault String
  | .null => .ok "null"
  | .bool b => .ok (if b then "true" else "false")
  | .int n => (Numeral.written n).mapError .numeral
  | .float x => .ok (float x)
  | .text s => .ok (string style.ascii s)
  | .list items | .tuple items => do
    return enclose style depth "[" "]" (← renderItems style (depth + 1) items)
  | .map es => do
    let fields ← sortFields (← renderFields style (depth + 1) es)
    return enclose style depth "\x7b" "\x7d" (← fields.mapM (member style))
  | .date _ | .moment _ | .bytes _ | .set _ | .ref _ | .looped .. => .error .wrongKind

/-- The items of a list. -/
def renderItems (style : Style) (depth : Nat) : List Value → Except Fault (List String)
  | [] => .ok []
  | v :: rest => do return (← render style depth v) :: (← renderItems style depth rest)

/-- The keys of a mapping with their rendered values, in the mapping's order. -/
def renderFields (style : Style) (depth : Nat) :
    List (Value × Value) → Except Fault (List (Value × String))
  | [] => .ok []
  | (k, v) :: rest => do
    return (k, ← render style depth v) :: (← renderFields style depth rest)

end

/-- A value on one line, in ASCII. -/
def inline (v : Value) : Except Fault String := render .inline 0 v

/-- A value as the text of a file: laid out on lines, with a line end after the last. -/
def document (v : Value) : Except Fault String := return (← render .file 0 v) ++ "\n"

end Assay.Json
