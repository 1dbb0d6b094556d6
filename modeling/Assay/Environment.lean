import Assay.Files.Disk
import Assay.Text.Blank

/-!
# Environment

The variables of a run, and the file that may add to them. A line of that file assigns a value to a
name; blank lines, comment lines and lines without an equals sign say nothing. A value between two
equal quotes is taken as it stands; any other value ends before the first blank that a number sign
follows and loses the quotes at its ends. A variable that is set already keeps its value, so of two
lines for one name the first counts.
-/

namespace Assay

/-- The variables of a run: names, each once, with their values. -/
abbrev Environment := List (String × String)

namespace Environment

/-- The value of a variable, if it is set. -/
def get? (env : Environment) (name : String) : Option String := env.lookup name

/-- The value of a variable, if it is set and not empty. -/
def given? (env : Environment) (name : String) : Option String :=
  (env.get? name).filter (· != "")

/-- The variables with one more, unless it is set already. -/
def setDefault (env : Environment) (name value : String) : Environment :=
  if (env.get? name).isSome then env else env ++ [(name, value)]

/-! ## Lines of the file -/

/-- A text up to the first blank that, perhaps after more blanks, a number sign follows. -/
def beforeComment : List Char → List Char
  | [] => []
  | c :: rest =>
    if Text.isBlank c && (rest.dropWhile Text.isBlank).head? == some '#' then []
    else c :: beforeComment rest

/-- The text between two equal quotes, if it stands between such. -/
def unquoted? (cs : List Char) : Option (List Char) :=
  match cs with
  | q :: rest =>
    if (q = '"' ∨ q = '\'') ∧ rest.getLast? = some q then some rest.dropLast else none
  | [] => none

/-- A text without the characters `q` at its ends. -/
def trimChar (q : Char) (cs : List Char) : List Char :=
  Text.dropEnd (· == q) (cs.dropWhile (· == q))

/-- The value that the text after an equals sign stands for. -/
def valueOf (cs : List Char) : List Char :=
  let cs := Text.trim cs
  match unquoted? cs with
  | some inner => inner
  | none => trimChar '\'' (trimChar '"' (Text.trim (beforeComment cs)))

/-- The word that may stand before an assignment. -/
def exportWord : List Char := "export ".toList

/-- A line without the word before the assignment and the blanks after it. -/
def dropExport (cs : List Char) : List Char :=
  if exportWord.isPrefixOf cs then Text.trimStart (cs.drop exportWord.length) else cs

/-- The name and the value that a line assigns, if it assigns one. -/
def assignment? (line : List Char) : Option (String × String) :=
  let line := Text.trim line
  if line.head? = some '#' ∨ '=' ∉ line then none
  else
    let body := dropExport line
    let name := Text.trim (body.takeWhile (· != '='))
    if name.isEmpty then none
    else some (String.ofList name, String.ofList (valueOf ((body.dropWhile (· != '=')).drop 1)))

/-- The assignments of a text, in order. -/
def assignments (text : String) : List (String × String) :=
  (Text.lines text.toList).filterMap assignment?

/-- The variables with assignments added. No variable can hold the null character. -/
def addAll (env : Environment) : List (String × String) → Except Fault Environment
  | [] => .ok env
  | (name, value) :: rest =>
    if (env.get? name).isSome then addAll env rest
    else if (name ++ value).toList.contains '\x00' then .error (.rejected .embeddedNull)
    else addAll (env.setDefault name value) rest

/-- The variables with those of a file added, if there is the file. -/
def addFile (env : Environment) (d : Disk) (p : Path) : Except Fault Environment := do
  match ← d.find? p with
  | none => return env
  | some _ => addAll env (assignments (← d.readText p))

/-- The name of the file that may add to the variables. -/
def fileName : String := ".env"

end Environment

end Assay
