import Assay.Xml.Scan

/-!
# Tokens outside of elements

What stands before and after the outermost element, and inside the document type, is a sequence of
tokens with white space between them. A token that cannot end where it does is refused at the
character that follows; `nextAt` gives the next token with its place.
-/

namespace Assay.Xml

/-- A token outside of elements. -/
inductive DeclToken where
  | space
  /-- The start of an element, which is left in place. -/
  | element
  /-- The start of a declaration. -/
  | opening (name : List Char)
  | comment
  | instruction
  /-- The XML declaration. -/
  | declaration
  | name (text : List Char)
  /-- A name with a colon in it. -/
  | qualified (text : List Char)
  /-- Characters of a name that are no name. -/
  | word (text : List Char)
  /-- A name with a sign that says how often it may stand. -/
  | counted (text : List Char)
  /-- A name after a number sign. -/
  | keyword (text : List Char)
  | literal (text after : List Char)
  | openBracket
  | closeBracket
  | openSection
  | closeSection
  | openGroup
  /-- The end of a group, with the sign that says how often it may stand. -/
  | closeGroup (sign : Option Char)
  | comma
  | bar
  | close
  | percent
  /-- A reference to an entity that holds declarations. -/
  | parameter
  deriving Repr, DecidableEq

/-- What has been read of a name that goes on. -/
inductive NameKind where
  | name
  | qualified
  | word
  deriving Repr, DecidableEq

/-- The token of a name, once it has ended. -/
def NameKind.token (text : List Char) : NameKind → DeclToken
  | .name => .name text
  | .qualified => .qualified text
  | .word => .word text

/-- A character that can follow a name. -/
def endsName (c : Char) : Bool :=
  isSpace c || c == '>' || c == ')' || c == ',' || c == '|' || c == '[' || c == '%'

/-- A sign that says how often something may stand. -/
def isSign (c : Char) : Bool := c == '*' || c == '+' || c == '?'

/-- The rest of a name of which `text` has been read, in reverse. -/
def nameRestAt (start : List Char) (kind : NameKind) (text : List Char) :
    List Char → Except Stop (DeclToken × List Char)
  | [] => .ok (kind.token text.reverse, [])
  | [':'] => if kind = .name then unclosed start else .ok (.word (':' :: text).reverse, [])
  | ':' :: c :: rest =>
    if kind = .name ∧ isNameChar c then nameRestAt start .qualified (c :: ':' :: text) rest
    else nameRestAt start .word (':' :: text) (c :: rest)
  | c :: rest =>
    if isNameChar c then nameRestAt start kind (c :: text) rest
    else if endsName c then .ok (kind.token text.reverse, c :: rest)
    else if isSign c ∧ kind ≠ .word then .ok (.counted text.reverse, rest)
    else misplaced (c :: rest)

/-- A literal of which `text` has been read, in reverse. -/
def literalAt (start : List Char) (quote : Char) (text : List Char) :
    List Char → Except Stop (DeclToken × List Char)
  | [] => unclosed start
  | c :: rest =>
    if c = quote then
      match rest with
      | [] => .ok (.literal text.reverse (c :: rest), rest)
      | e :: _ =>
        if isSpace e || e == '>' || e == '%' || e == '[' then
          .ok (.literal text.reverse (c :: rest), rest)
        else misplaced rest
    else if isAllowed c then literalAt start quote (c :: text) rest
    else misplaced (c :: rest)

/-- The name that a declaration opens with. -/
def openingAt (start cs : List Char) : Except Stop (DeclToken × List Char) :=
  let (name, rest) := cs.span fun c => c.isAlpha || c == '_'
  match rest with
  | [] => unclosed start
  | '%' :: c :: _ =>
    if isSpace c || c == '%' then misplaced rest else .ok (.opening name, rest)
  | ['%'] => unclosed start
  | c :: _ => if isSpace c then .ok (.opening name, rest) else misplaced rest

/-- A token after an opening bracket and an exclamation mark. -/
def markAt (start cs : List Char) : Except Stop (DeclToken × List Char) :=
  match cs with
  | [] => unclosed start
  | '-' :: rest =>
    match rest with
    | [] => unclosed start
    | '-' :: rest => do return (.comment, ← commentAt start rest)
    | _ => misplaced rest
  | '[' :: rest => .ok (.openSection, rest)
  | c :: _ => if c.isAlpha || c == '_' then openingAt start cs else misplaced cs

/-- A token that starts with a percent sign, from after it. -/
def percentAt (start cs : List Char) : Except Stop (DeclToken × List Char) :=
  match cs with
  | [] => unclosed start
  | c :: _ =>
    if isSpace c || c == '%' then .ok (.percent, cs)
    else do
      let (_, rest) ← nameAt start cs
      match rest with
      | [] => unclosed start
      | ';' :: rest => return (.parameter, rest)
      | _ => misplaced rest

/-- A token that starts with a closing bracket, from after it. -/
def bracketAt (start cs : List Char) : Except Stop (DeclToken × List Char) :=
  match cs with
  | [']'] => unclosed start
  | ']' :: '>' :: rest => .ok (.closeSection, rest)
  | _ => .ok (.closeBracket, cs)

/-- A token that starts with a closing parenthesis, from after it. -/
def parenthesisAt (cs : List Char) : Except Stop (DeclToken × List Char) :=
  match cs with
  | [] => .ok (.closeGroup none, [])
  | c :: rest =>
    if isSign c then .ok (.closeGroup (some c), rest)
    else if isSpace c || c == '>' || c == ',' || c == '|' || c == ')' then
      .ok (.closeGroup none, cs)
    else misplaced cs

/-- A token that starts with a number sign, from after it. -/
def keywordAt (start cs : List Char) : Except Stop (DeclToken × List Char) := do
  let (text, rest) ← nameAt start cs
  match rest with
  | [] => return (.keyword text, [])
  | c :: _ =>
    if isSpace c || c == ')' || c == '>' || c == '%' || c == '|' then return (.keyword text, rest)
    else misplaced rest

/-- The token at the start of a text that is not empty. -/
def declTokenAt (cs : List Char) : Except Stop (DeclToken × List Char) :=
  match cs with
  | [] => unclosed cs
  | '<' :: rest =>
    match rest with
    | [] => unclosed cs
    | '!' :: rest => markAt cs rest
    | '?' :: rest => do
      let (isDeclaration, rest) ← instructionAt cs rest
      return (if isDeclaration then .declaration else .instruction, rest)
    | c :: _ => if isNameStart c then .ok (.element, cs) else misplaced rest
  | '%' :: rest => percentAt cs rest
  | '[' :: rest => .ok (.openBracket, rest)
  | ']' :: rest => bracketAt cs rest
  | '(' :: rest => .ok (.openGroup, rest)
  | ')' :: rest => parenthesisAt rest
  | '|' :: rest => .ok (.bar, rest)
  | ',' :: rest => .ok (.comma, rest)
  | '>' :: rest => .ok (.close, rest)
  | '#' :: rest => keywordAt cs rest
  | c :: rest =>
    if isSpace c then .ok (.space, skipSpace rest)
    else if c = '"' ∨ c = '\'' then literalAt cs c [] rest
    else if isNameStart c then nameRestAt cs .name [c] rest
    else if isNameChar c || c == ':' then nameRestAt cs .word [c] rest
    else misplaced cs

/-! ## Tokens in their places -/

/-- A token with the text from its start on and the text after it. -/
structure Placed where
  token : DeclToken
  place : List Char
  rest : List Char

/-- The next token that is no white space. -/
def nextAt (cs : List Char) : Except Stop Placed :=
  match skipSpace cs with
  | [] => .error ⟨.noElement, []⟩
  | place => do
    let (token, rest) ← declTokenAt place
    return ⟨token, place, rest⟩

/-- Refuses a token that does not belong where it stands. -/
def Placed.refuse (p : Placed) : Except Stop α :=
  .error ⟨match p.token with
    | .parameter => .parameterReference
    | .declaration => .misplacedDeclaration
    | _ => .syntaxError, p.place⟩

/-- The rest after the end of a declaration. -/
def closeAt (cs : List Char) : Except Stop (List Char) := do
  let p ← nextAt cs
  if p.token = .close then return p.rest else p.refuse

/-- A name without a colon, and the rest after it. -/
def wordAt (cs : List Char) : Except Stop (List Char × List Char) := do
  let p ← nextAt cs
  match p.token with
  | .name n => return (n, p.rest)
  | _ => p.refuse

end Assay.Xml
