/-!
# Blank characters and trimming

Which characters count as blank is a property of the character alone: the white space of every
script and the four ASCII separators. Trimming removes them from the ends of a text and never from
its middle.
-/

namespace Assay.Text

/-- White space of every script and the information separators U+001C to U+001F. -/
def isBlank (c : Char) : Bool :=
  let n := c.toNat
  (9 ≤ n && n ≤ 13) || (28 ≤ n && n ≤ 32) || n == 0x85 || n == 0xA0 || n == 0x1680 ||
    (0x2000 ≤ n && n ≤ 0x200A) || n == 0x2028 || n == 0x2029 || n == 0x202F || n == 0x205F ||
    n == 0x3000

/-- The text from its first character that is not blank. -/
def trimStart (cs : List Char) : List Char := cs.dropWhile isBlank

/-- The text up to its last character that is not blank. -/
def trimEnd (cs : List Char) : List Char := (cs.reverse.dropWhile isBlank).reverse

/-- The text between its first and its last character that is not blank. -/
def trim (cs : List Char) : List Char := trimEnd (trimStart cs)

/-- A text without a character that is not blank. -/
def isAllBlank (cs : List Char) : Bool := cs.all isBlank

/-- `trim` on strings. -/
def strip (s : String) : String := String.ofList (trim s.toList)

/-- A text without the trailing characters for which `p` holds. -/
def dropEnd (p : Char → Bool) (cs : List Char) : List Char := (cs.reverse.dropWhile p).reverse

end Assay.Text
