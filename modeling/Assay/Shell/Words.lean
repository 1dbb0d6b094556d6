import Assay.Fault

/-!
# Command words

A command is written as words between blanks. Quotes keep blanks, and a backslash keeps the
character after it; between double quotes a backslash keeps only a double quote or another
backslash and stands for itself otherwise. `join` writes words so that `split` reads them back.
-/

namespace Assay.Shell

/-- Where the reader of a command stands. -/
inductive Quoting where
  | bare
  | single
  | double
  /-- After a backslash outside quotes. -/
  | escaped
  /-- After a backslash between double quotes. -/
  | doubleEscaped
  deriving Repr, DecidableEq

/-- A character that separates words. -/
def isGap (c : Char) : Bool := c == ' ' || c == '\t' || c == '\r' || c == '\n'

/-- The words of a text, of which one has been read up to `word`, in reverse, if one has begun. -/
def wordsFrom (q : Quoting) (word : Option (List Char)) :
    List Char → Except Rejection (List (List Char))
  | [] =>
    match q with
    | .bare => .ok (word.toList.map List.reverse)
    | .single | .double => .error .openQuotation
    | .escaped | .doubleEscaped => .error .openEscape
  | c :: rest =>
    let soFar := word.getD []
    match q with
    | .bare =>
      if isGap c then do return word.toList.map List.reverse ++ (← wordsFrom .bare none rest)
      else if c = '\'' then wordsFrom .single (some soFar) rest
      else if c = '"' then wordsFrom .double (some soFar) rest
      else if c = '\\' then wordsFrom .escaped (some soFar) rest
      else wordsFrom .bare (some (c :: soFar)) rest
    | .single =>
      if c = '\'' then wordsFrom .bare (some soFar) rest
      else wordsFrom .single (some (c :: soFar)) rest
    | .double =>
      if c = '"' then wordsFrom .bare (some soFar) rest
      else if c = '\\' then wordsFrom .doubleEscaped (some soFar) rest
      else wordsFrom .double (some (c :: soFar)) rest
    | .escaped => wordsFrom .bare (some (c :: soFar)) rest
    | .doubleEscaped =>
      if c = '"' ∨ c = '\\' then wordsFrom .double (some (c :: soFar)) rest
      else wordsFrom .double (some (c :: '\\' :: soFar)) rest

/-- The words of a command. -/
def split (s : String) : Except Rejection (List String) := do
  return (← wordsFrom .bare none s.toList).map String.ofList

/-- A character that needs no quotes. -/
def isPlain (c : Char) : Bool :=
  c.isAlphanum || c == '_' || c == '@' || c == '%' || c == '+' || c == '=' || c == ':' ||
    c == ',' || c == '.' || c == '/' || c == '-'

/-- A character between single quotes; a single quote is put between double quotes instead. -/
def quotedChar (c : Char) : List Char :=
  if c = '\'' then ['\'', '"', '\'', '"', '\''] else [c]

/-- A word, with quotes if it needs them. -/
def quote (word : List Char) : List Char :=
  if word.isEmpty then ['\'', '\'']
  else if word.all isPlain then word
  else '\'' :: word.flatMap quotedChar ++ ['\'']

/-- Words as a command. -/
def join (words : List String) : String :=
  " ".intercalate (words.map fun w => String.ofList (quote w.toList))

end Assay.Shell
