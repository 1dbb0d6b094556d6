import Assay.Xml.DocumentType

/-!
# The prolog of an XML document

What stands before the outermost element: the XML declaration, comments, instructions and the
document type.
-/

namespace Assay.Xml

/-! ## The XML declaration -/

/-- A name and a value in a declaration. -/
structure Setting where
  name : List Char
  namePlace : List Char
  value : List Char
  valuePlace : List Char

/-- A character of a value in a declaration. -/
def isSettingChar (c : Char) : Bool := c.isAlphanum || c == '.' || c == '-' || c == '_'

/-- The next setting of a declaration, if there is one. Failure gives the place of the flaw. -/
def settingAt (cs : List Char) : Except (List Char) (Option Setting × List Char) :=
  match cs with
  | [] => .ok (none, [])
  | c :: _ =>
    if !isSpace c then .error cs
    else match skipSpace cs with
      | [] => .ok (none, [])
      | body =>
        let (name, rest) := body.span fun c => c != '=' && !isSpace c && c.toNat < 128
        match skipSpace rest with
        | '=' :: rest =>
          if name.isEmpty then .error body
          else match skipSpace rest with
            | [] => .error []
            | q :: value =>
              if q = '"' ∨ q = '\'' then
                let (text, rest) := value.span isSettingChar
                match rest with
                | [] => .error []
                | e :: after =>
                  if e = q then .ok (some ⟨name, body, text, value⟩, after) else .error rest
              else .error (q :: value)
        | other => .error other

/-- Whether a setting has a name. -/
def Setting.isNamed (s : Setting) (name : String) : Bool := s.name == name.toList

/-- Reads the end of a declaration: a setting that says whether the document stands alone, if there
is any setting left. -/
def standaloneOf : Option Setting × List Char → Except (List Char) Bool
  | (none, _) => .ok false
  | (some s, rest) =>
    if !s.isNamed "standalone" then .error s.namePlace
    else if s.value != "yes".toList && s.value != "no".toList then .error s.valuePlace
    else match skipSpace rest with
      | [] => .ok (s.value == "yes".toList)
      | other => .error other

/-- Reads the settings of an XML declaration: version, then encoding, then whether the document
stands alone. -/
def declarationOf (body : List Char) : Except (List Char) Bool := do
  match ← settingAt body with
  | (none, rest) => throw rest
  | (some version, rest) =>
    if !version.isNamed "version" then throw version.namePlace
    match ← settingAt rest with
    | (some s, rest) =>
      if s.isNamed "encoding" then
        if s.value.head?.any Char.isAlpha then standaloneOf (← settingAt rest)
        else throw s.valuePlace
      else standaloneOf (some s, rest)
    | (none, _) => return false

/-! ## The prolog -/

/-- Reads a prolog up to the outermost element. `fresh` tells that nothing has been read yet, and
`typed` that the document type has. The bound is on the number of tokens. -/
def prologAt : Nat → Declared → Bool → Bool → List Char → Except Stop (Declared × List Char)
  | 0, _, _, _, cs => .error ⟨.syntaxError, cs⟩
  | _, _, _, _, [] => .error ⟨.noElement, []⟩
  | bound + 1, d, fresh, typed, cs => do
    let (token, rest) ← declTokenAt cs
    match token with
    | .element => return (d, cs)
    | .space | .comment | .instruction => prologAt bound d false typed rest
    | .declaration =>
      if !fresh then throw ⟨.misplacedDeclaration, cs⟩
      -- The settings stand between the five characters that open the declaration and its end.
      let body := (cs.drop 5).take (cs.length - rest.length - 7)
      match declarationOf body with
      | .ok standalone => prologAt bound { d with standalone } false typed rest
      | .error place => throw ⟨.badDeclaration, place ++ '?' :: '>' :: rest⟩
    | .opening name =>
      if typed || name != "DOCTYPE".toList then throw ⟨.syntaxError, cs⟩
      let (d, rest) ← documentTypeAt d rest
      prologAt bound d false true rest
    | .parameter => throw ⟨.parameterReference, cs⟩
    | _ => throw ⟨.syntaxError, cs⟩

end Assay.Xml
