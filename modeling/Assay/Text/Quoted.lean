import Assay.Text.Hex
import Assay.Text.Printable
import Assay.Text.Surrogate

/-!
# Quoted text

How a text is shown inside a message: between single quotes, or between double quotes when it holds
a single quote and no double one. A backslash, the quote in use and every character without a
visible form are written as escapes.
-/

namespace Assay.Text

/-- A code point as the shortest of the escapes with two, four or eight hexadecimal digits. -/
def codeEscape (n : Nat) : List Char :=
  if n < 0x100 then '\\' :: 'x' :: hex 2 n
  else if n < 0x10000 then '\\' :: 'u' :: hex 4 n
  else '\\' :: 'U' :: hex 8 n

/-- One code point as it stands between the quotes. -/
def quotedUnit (quote : Char) (unit : Nat) : List Char :=
  let c := Char.ofNat unit
  if c = quote ∨ c = '\\' then ['\\', c]
  else if c = '\n' then ['\\', 'n']
  else if c = '\r' then ['\\', 'r']
  else if c = '\t' then ['\\', 't']
  else if isPrintable c then [c]
  -- No surrogate is printable: `c` is U+0000 then.
  else codeEscape unit

/-- The quote that needs no escape, if one does not. -/
def quoteFor (cs : List Char) : Char :=
  if cs.contains '\'' && !cs.contains '"' then '"' else '\''

/-- A text between quotes. -/
def quotedChars (cs : List Char) : List Char :=
  let q := quoteFor cs
  q :: (units cs).flatMap (quotedUnit q) ++ [q]

/-- One byte as it stands between the quotes: a character of ASCII stands for itself. -/
def quotedByte (quote : Char) (b : UInt8) : List Char :=
  if b.toNat < 0x80 then quotedUnit quote b.toNat else codeEscape b.toNat

/-- Bytes between quotes, behind a letter that tells them from text. -/
def quotedBytes (bs : List UInt8) : String :=
  let q := quoteFor (bs.map fun b => Char.ofNat b.toNat)
  String.ofList ('b' :: q :: bs.flatMap (quotedByte q) ++ [q])

/-- `quotedChars` on strings. -/
def quoted (s : String) : String := String.ofList (quotedChars s.toList)

end Assay.Text
