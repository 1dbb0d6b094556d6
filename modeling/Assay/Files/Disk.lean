import Assay.Fault
import Assay.Files.Path
import Assay.Text.Line

/-!
# Files and directories

A disk is a tree of directories with a working directory in it. Walking a path checks every name on
the way, so that `..` needs a directory to go back from. Writing a file is all or nothing: a file
has its old content until it has its new content. What has been done before an operation fails stays
done.
-/

namespace Assay

/-- A file or a directory. -/
inductive Node where
  | file (bytes : List UInt8)
  | dir (entries : List (String × Node))
  deriving Inhabited

/-- The content of a directory: names, each once, with what they stand for. -/
abbrev Directory := List (String × Node)

namespace Directory

/-- What a name stands for. -/
def get? (d : Directory) (name : String) : Option Node := d.lookup name

/-- The directory with a name standing for something else. -/
def put (name : String) (node : Node) : Directory → Directory
  | [] => [(name, node)]
  | (n, old) :: rest => if n = name then (n, node) :: rest else (n, old) :: put name node rest

/-- The directory without a name. -/
def erase (d : Directory) (name : String) : Directory := d.filter (·.1 != name)

end Directory

namespace Node

/-- What some names lead to. -/
def get? : Node → List String → Option Node
  | n, [] => some n
  | .dir es, name :: rest => (Directory.get? es name).bind fun n => n.get? rest
  | .file _, _ :: _ => none

/-- The tree with something else where some names lead to. Nothing changes if there is no directory
to put it into. -/
def put : Node → List String → Node → Node
  | _, [], new => new
  | .file bytes, _ :: _, _ => .file bytes
  | .dir es, [name], new => .dir (Directory.put name new es)
  | .dir es, name :: rest, new =>
    match Directory.get? es name with
    | some n => .dir (Directory.put name (n.put rest new) es)
    | none => .dir es

/-- Whether the node is a file. -/
def isFile : Node → Bool
  | .file _ => true
  | .dir _ => false

/-- Whether the node is a directory. -/
def isDir : Node → Bool
  | .file _ => false
  | .dir _ => true

mutual

/-- Every file below a node, with the names that lead to it. -/
def files : Node → List (List String × List UInt8)
  | .file bytes => [([], bytes)]
  | .dir es => filesIn es

/-- Every file in a directory and below. -/
def filesIn : List (String × Node) → List (List String × List UInt8)
  | [] => []
  | (name, n) :: rest => (files n).map (fun (p, b) => (name :: p, b)) ++ filesIn rest

end

end Node

namespace Path

/-- Why a disk cannot be asked for a path: its text has no bytes, or holds the zero that ends names. -/
def nameFault? (text : String) : Option Fault :=
  match Utf8.unnameable? 0 (Text.units text.toList) with
  | some e => some (.unencodable e)
  | none => if text.toList.contains '\x00' then some (.rejected .embeddedNull) else none

/-- The first fault met when the places on the way to a path are asked for one after the other;
`reached` holds the names of the place reached so far. -/
def faultFrom (root : String) (reached : List String) : List String → Option Fault
  | [] => none
  | name :: rest =>
    if name = ".." then
      if root = "" ∧ (reached = [] ∨ reached.getLast? = some "..") then
        faultFrom root (reached ++ [".."]) rest
      else faultFrom root reached.dropLast rest
    else
      match nameFault? (root ++ joined (reached ++ [name])) with
      | some f => some f
      | none => faultFrom root (reached ++ [name]) rest

/-- The absolute path that a path stands for, if a disk can be asked for each place on the way. -/
def resolve? (cwd : List String) (p : Path) : Except Fault Path :=
  match faultFrom (if p.isAbsolute then "/" else "") [] p.names with
  | some f => .error f
  | none => .ok (p.resolve cwd)

end Path

/-- A tree of files and a working directory in it. -/
structure Disk where
  top : Node
  cwd : List String
  deriving Inhabited

namespace Disk

/-- The most bytes of a name. -/
def maxName : Nat := 255

/-- The most bytes of a path. -/
def maxPath : Nat := 4095

/-- The number of bytes of a text. -/
def width (s : String) : Nat := s.utf8ByteSize

/-- Follows names from a place that exists to the place they lead to. -/
def follow (top : Node) (place : List String) : List String → Except FileFault (List String)
  | [] => .ok place
  | name :: rest =>
    match top.get? place with
    | some (.dir es) =>
      if name = ".." then follow top place.dropLast rest
      else if maxName < width name then .error .nameTooLong
      else if (Directory.get? es name).isSome then follow top (place ++ [name]) rest
      else .error .notFound
    | _ => .error .notDirectory

/-- The place that a path leads to. -/
def locate (d : Disk) (p : Path) : Except FileFault (List String) :=
  if p.names.any (·.toList.contains '\x00') then .error .embeddedNull
  else if maxPath < width p.toText then .error .nameTooLong
  else follow d.top (if p.isAbsolute then [] else d.cwd) p.names

/-- What a path leads to. -/
def find (d : Disk) (p : Path) : Except FileFault Node := do
  match d.top.get? (← d.locate p) with
  | some n => return n
  | none => throw .notFound

/-- What a path leads to, if anything. Only a name that no file can have is a fault. -/
def find? (d : Disk) (p : Path) : Except Fault (Option Node) :=
  match d.find p with
  | .ok n => .ok (some n)
  | .error .nameTooLong => .error (.file .nameTooLong)
  | .error _ => .ok none

/-- Whether a path leads to a file. -/
def isFile (d : Disk) (p : Path) : Except Fault Bool := do
  return (← d.find? p).any Node.isFile

/-- The bytes of the file that a path leads to. -/
def readBytes (d : Disk) (p : Path) : Except Fault (List UInt8) :=
  match d.find p with
  | .ok (.file bytes) => .ok bytes
  | .ok (.dir _) => .error (.file .isDirectory)
  | .error .embeddedNull => .error (.rejected .embeddedNull)
  | .error f => .error (.file f)

/-- Bytes as text with unified line ends; a flaw in the bytes is a fault. -/
def textOf (bytes : List UInt8) : Except Fault String := do
  let s ← (Utf8.decode bytes).mapError Fault.undecodable
  return String.ofList (Text.unifyLineEnds s.toList)

/-- Bytes as text with unified line ends; a flaw in the bytes becomes a replacement character. -/
def lossyTextOf (bytes : List UInt8) : String :=
  String.ofList (Text.unifyLineEnds (Utf8.decodeLossy bytes).toList)

/-- The text of the file that a path leads to. -/
def readText (d : Disk) (p : Path) : Except Fault String := do textOf (← d.readBytes p)

/-- The text of the file that a path leads to, whatever its bytes are. -/
def readLossy (d : Disk) (p : Path) : Except Fault String := do
  return lossyTextOf (← d.readBytes p)

/-- Follows names from a place that exists and makes the directories that are missing. -/
def makeDirs (top : Node) (place : List String) : List String → Except FileFault Unit × Node
  | [] =>
    match top.get? place with
    | some (.dir _) => (.ok (), top)
    | _ => (.error .exists, top)
  | name :: rest =>
    match top.get? place with
    | some (.dir es) =>
      if name = ".." then makeDirs top place.dropLast rest
      else if maxName < width name then (.error .nameTooLong, top)
      else if (Directory.get? es name).isSome then makeDirs top (place ++ [name]) rest
      else makeDirs (top.put (place ++ [name]) (.dir [])) (place ++ [name]) rest
    | _ => (.error .notDirectory, top)

/-- The disk after making every missing directory on a path. -/
def mkdirs (d : Disk) (p : Path) : Except Fault Unit × Disk :=
  if p.names.any (·.toList.contains '\x00') then (.error (.rejected .embeddedNull), d)
  else if maxPath < width p.toText then (.error (.file .nameTooLong), d)
  else
    let (r, top) := makeDirs d.top (if p.isAbsolute then [] else d.cwd) p.names
    (r.mapError .file, { d with top })

/-- The disk with other bytes in the file that a path leads to. The directory must exist, and the
path must end in a name that is no directory's. -/
def replace (d : Disk) (p : Path) (bytes : List UInt8) : Except Fault Unit × Disk :=
  match d.find p.parent, d.locate p.parent with
  | .ok (.dir es), .ok place =>
    if p.name = "" ∨ p.name = ".." then (.error (.file .busy), d)
    else if maxName < width p.name then (.error (.file .nameTooLong), d)
    else match Directory.get? es p.name with
      | some (.dir _) => (.error (.file .isDirectory), d)
      | _ => (.ok (), { d with top := d.top.put (place ++ [p.name]) (.file bytes) })
  | .ok (.file _), _ => (.error (.file .notDirectory), d)
  | .error f, _ => (.error (.file f), d)
  | _, .error f => (.error (.file f), d)

/-- The disk without what a path leads to. -/
def remove (d : Disk) (p : Path) : Disk :=
  match d.find p.parent, d.locate p.parent with
  | .ok (.dir es), .ok place => { d with top := d.top.put place (.dir (Directory.erase es p.name)) }
  | _, _ => d

/-- How many bytes longer the name is under which a file is first written beside its place. -/
def stagingWidth : Nat := 13

/-- The disk after writing a text to a file. Directories are made first; a text that has no bytes
leaves the file as it was. -/
def writeText (d : Disk) (p : Path) (text : String) : Except Fault Unit × Disk :=
  match d.mkdirs p.parent with
  | (.error f, d) => (.error f, d)
  | (.ok (), d) =>
    if maxName < width p.name + stagingWidth then (.error (.file .nameTooLong), d)
    else match Utf8.encode? text with
    | .error e => (.error (.unencodable e), d)
    | .ok bytes => d.replace p bytes

end Disk

/-- An operation that may change files and may fail; what it did before failing stays done. -/
abbrev OnDisk := ExceptT Fault (StateM Disk)

namespace OnDisk

/-- An operation that only looks at files. -/
def look (f : Disk → Except Fault α) : OnDisk α := do
  match f (← get) with
  | .ok a => return a
  | .error e => throw e

/-- An operation given by its outcome and the disk after it. -/
def act (f : Disk → Except Fault α × Disk) : OnDisk α := do
  let (r, d) := f (← get)
  set d
  match r with
  | .ok a => return a
  | .error e => throw e

/-- An operation whose failure is part of its result. -/
def attempt (x : OnDisk α) : OnDisk (Except Fault α) := do
  let (r, d) := x.run (← get)
  set d
  return r

/-- Writes a text to a file. -/
def writeText (p : Path) (text : String) : OnDisk Unit := act fun d => d.writeText p text

end OnDisk

end Assay
