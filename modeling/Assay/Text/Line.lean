/-!
# Lines

A text is cut at every line boundary of Unicode: the line feed, the carriage return (alone or before
a line feed), the vertical tab and form feed, the separators U+001C to U+001E, the next-line
character and the line and paragraph separators. A boundary ends a line, so nothing follows the
last one. Text files are read with their line ends unified first.
-/

namespace Assay.Text

/-- A character that ends a line. -/
def isLineEnd (c : Char) : Bool :=
  let n := c.toNat
  (10 ≤ n && n ≤ 13) || (28 ≤ n && n ≤ 30) || n == 0x85 || n == 0x2028 || n == 0x2029

/-- The lines of a text whose current line has been read up to `line`, in reverse. -/
def linesFrom (line : List Char) : List Char → List (List Char)
  | [] => if line.isEmpty then [] else [line.reverse]
  | '\r' :: '\n' :: rest => line.reverse :: linesFrom [] rest
  | c :: rest =>
    if isLineEnd c then line.reverse :: linesFrom [] rest else linesFrom (c :: line) rest

/-- The lines of a text, without their ends. -/
def lines (cs : List Char) : List (List Char) := linesFrom [] cs

/-- `lines` on strings. -/
def splitLines (s : String) : List String := (lines s.toList).map String.ofList

/-- Every line end of a text file as one line feed: a carriage return counts as a line end, and
together with the line feed after it as one. -/
def unifyLineEnds : List Char → List Char
  | [] => []
  | '\r' :: '\n' :: rest => '\n' :: unifyLineEnds rest
  | c :: rest => (if c = '\r' then '\n' else c) :: unifyLineEnds rest

end Assay.Text
