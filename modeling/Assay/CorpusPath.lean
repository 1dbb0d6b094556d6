import Assay.Files.Disk
import Assay.Text.Blank
import Assay.Text.Surrogate

/-!
# Paths of corpus files

Tools name a file in many ways: absolute, relative to the corpus or to a directory above it, as a
file address, or with other separators. Findings and known defects are compared by the path relative
to the corpus, so every way of naming a file is brought to that form. A path that is not recognised
is only cleaned; it then matches no file of the corpus.
-/

namespace Assay

/-- The top of a corpus, as it was given and as it is seen from the top of the disk. -/
structure CorpusRoot where
  given : String
  resolved : String
  deriving Repr, DecidableEq, Inhabited

namespace CorpusRoot

/-- The top of a corpus given by a text, seen from a working directory. -/
def ofText (cwd : List String) (s : String) : Except Fault CorpusRoot :=
  return ⟨s, (← (Path.ofText s).resolve? cwd).toText⟩

end CorpusRoot

namespace CorpusPath

/-- Every backslash as a slash. -/
def withSlashes (cs : List Char) : List Char := cs.map fun c => if c = '\\' then '/' else c

/-- A path without the scheme of file addresses. -/
def dropScheme (cs : List Char) : List Char :=
  if (cs.take 7).map Char.toLower = "file://".toList then cs.drop 7 else cs

/-- A path without a drive, which is one character before a colon. -/
def dropDrive (cs : List Char) : List Char :=
  match Text.tail cs with
  | ':' :: rest => rest
  | _ => cs

/-- A path without the names `.` that it starts with. -/
def dropDots : List Char → List Char
  | '.' :: '/' :: rest => dropDots rest
  | cs => cs

/-- A path without the slashes that it starts with. -/
def dropSlashes (cs : List Char) : List Char := cs.dropWhile (· == '/')

/-- A text without the slashes that it ends with. -/
def dropLastSlashes (cs : List Char) : List Char := Text.dropEnd (· == '/') cs

/-- Runs of slashes as one slash each. -/
def squeeze : List Char → List Char
  | '/' :: '/' :: rest => squeeze ('/' :: rest)
  | c :: rest => c :: squeeze rest
  | [] => []

/-- What follows the last place where some text stands, if it stands anywhere. -/
def afterLast (needle : List Char) : List Char → Option (List Char)
  | [] => none
  | c :: rest =>
    match afterLast needle rest with
    | some r => some r
    | none => if needle.isPrefixOf (c :: rest) then some ((c :: rest).drop needle.length) else none

/-- The part of a path below a top, if the top is in front of it. -/
def below? (top cs : List Char) : Option (List Char) :=
  if top.isEmpty then none
  else if cs = top ∨ (top ++ ['/']).isPrefixOf cs then some (cs.drop top.length)
  else none

/-- The part of a path after the last directory with a name, or the path itself. -/
def afterName (name : List Char) (cs : List Char) : List Char :=
  if name.isEmpty then cs
  else
    let cs := dropDots cs
    (afterLast ('/' :: name ++ ['/']) ('/' :: dropSlashes cs)).getD cs

/-- A path with the part above the corpus cut off: a known top in front of it, or everything up to
a directory with the name of the corpus. -/
def cutRoot (root : CorpusRoot) (cs : List Char) : List Char :=
  let given := dropDrive (dropLastSlashes (withSlashes root.given.toList))
  let resolved := dropLastSlashes (withSlashes root.resolved.toList)
  match below? given cs with
  | some rest => rest
  | none =>
    match below? resolved cs with
    | some rest => rest
    | none => afterName (Path.ofText (String.ofList given)).name.toList cs

/-- A path without what only leads to the corpus: no leading dots or slashes, single slashes. -/
def clean (cs : List Char) : List Char := squeeze (dropSlashes (dropDots cs))

/-- The form in which paths are compared. -/
def normalize (root : Option CorpusRoot) (path : String) : String :=
  let cs := dropDrive (withSlashes (dropScheme (Text.trim path.toList)))
  String.ofList (clean (match root with | some r => cutRoot r cs | none => cs))

/-- The form of a path that a tool names. The top of the corpus counts only where a path is named, so
a fault of it is one only there. -/
def ofTool (root : Option (Except Fault CorpusRoot)) (path : String) : Except Fault String :=
  if path = "" then .ok ""
  else match root with
    | none => .ok (normalize none path)
    | some r => r.map fun r => normalize (some r) path

end CorpusPath

end Assay
