/-!
# Paths

A path is a root and a list of names. Repeated slashes and the name `.` add nothing to a path and
are not kept; the name `..` is kept, because what it leads to depends on the files. A path that
starts with exactly two slashes keeps both.
-/

namespace Assay

/-- A path of names, absolute if it has a root. -/
structure Path where
  /-- No slash, one or two. -/
  root : String
  names : List String
  deriving Repr, DecidableEq, Inhabited

namespace Path

/-- The pieces of a text between slashes, the first of which has been read up to `piece`, in
reverse. -/
def piecesFrom (piece : List Char) : List Char → List (List Char)
  | [] => [piece.reverse]
  | '/' :: rest => piece.reverse :: piecesFrom [] rest
  | c :: rest => piecesFrom (c :: piece) rest

/-- The pieces of a text between slashes. -/
def pieces (cs : List Char) : List (List Char) := piecesFrom [] cs

/-- The root that a text starts with. -/
def rootOf : List Char → String
  | '/' :: '/' :: '/' :: _ => "/"
  | '/' :: '/' :: _ => "//"
  | '/' :: _ => "/"
  | _ => ""

/-- The path that a text stands for. -/
def ofText (s : String) : Path :=
  { root := rootOf s.toList
    names := ((pieces s.toList).map String.ofList).filter fun n => n ≠ "" ∧ n ≠ "." }

/-- Names with slashes between them. -/
def joined (names : List String) : String := "/".intercalate names

/-- The path as a text; the empty path is written as a dot. -/
def toText (p : Path) : String :=
  if p.root = "" ∧ p.names = [] then "." else p.root ++ joined p.names

/-- Whether a path does not depend on a working directory. -/
def isAbsolute (p : Path) : Bool := p.root != ""

/-- A path taken relative to another one. -/
def append (p q : Path) : Path := if q.isAbsolute then q else ⟨p.root, p.names ++ q.names⟩

/-- A path with one more name. -/
def child (p : Path) (name : String) : Path := ⟨p.root, p.names ++ [name]⟩

/-- A path without its last name. -/
def parent (p : Path) : Path := ⟨p.root, p.names.dropLast⟩

/-- The last name of a path, empty if it has none. -/
def name (p : Path) : String := p.names.getLast?.getD ""

/-- The end of a name from its last dot on. The dot must not stand at either end of the name. -/
def suffixOf (name : String) : String :=
  let cs := name.toList
  let ext := (cs.reverse.takeWhile (· != '.')).reverse
  if ext.isEmpty || cs.length ≤ ext.length + 1 then "" else String.ofList ('.' :: ext)

/-- The suffix of the last name of a path. -/
def suffix (p : Path) : String := suffixOf p.name

/-- The names that lead to a path from the top when each `..` takes back the name before it. -/
def collapse (top : List String) (names : List String) : List String :=
  names.foldl (fun reached n => if n = ".." then reached.dropLast else reached ++ [n]) top

/-- The absolute path of names from the top. -/
def ofNames (names : List String) : Path := ⟨"/", names⟩

/-- The absolute path that a path stands for, seen from a working directory. -/
def resolve (cwd : List String) (p : Path) : Path :=
  ofNames (collapse (if p.isAbsolute then [] else cwd) p.names)

/-- Whether a relative path stays below the place it starts from, judging by its names. -/
def isSafeRelative (s : String) : Bool :=
  s != "" && !(ofText s).isAbsolute && !(ofText s).names.contains ".."

end Path

end Assay
