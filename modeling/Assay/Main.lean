import Assay.CommandLine
import Std.Time.Format

/-!
# The program

The command line works on a value that holds the files it can see. Here that value is filled from
the working directory and from the absolute paths among the words of the command line, and the
files that have changed are written back, each beside its place first and then put into it.
-/

namespace Assay.Program

/-- The directories that are not descended into: they hold what other programs keep for themselves. -/
def passedOver : List String := [".git", "__pycache__", "node_modules"]

/-- The file or directory at a path. What cannot be read counts as empty. -/
partial def readNode (path : String) : IO (Option Node) := do
  try
    let real ← IO.FS.realPath path
    if ← real.isDir then
      let mut entries : List (String × Node) := []
      for e in ← real.readDir do
        if !passedOver.contains e.fileName then
          if let some n ← readNode (path ++ "/" ++ e.fileName) then
            entries := (e.fileName, n) :: entries
      return some (.dir entries)
    else if ← real.pathExists then
      return some (.file (← IO.FS.readBinFile path).toList)
    else return none
  catch _ => return none

/-- The disk with a node at the place that names lead to; directories on the way are made. -/
def place (d : Disk) (names : List String) (n : Node) : Disk :=
  let (_, d) := d.mkdirs (Path.ofNames names.dropLast)
  if names.isEmpty then { d with top := n } else { d with top := d.top.put names n }

/-- Writes the files of one tree that another tree does not hold as they are. -/
def writeChanges (before after : Node) : IO Unit := do
  for (names, bytes) in after.files do
    match before.get? names with
    | some (.file old) => if old = bytes then continue
    | _ => pure ()
    let path := "/" ++ Path.joined names
    IO.FS.createDirAll ("/" ++ Path.joined names.dropLast)
    let staged := path ++ ".tmp"
    IO.FS.writeBinFile staged (ByteArray.mk bytes.toArray)
    IO.FS.rename staged path

/-- The variables that the program reads. -/
def settingVariables : IO Environment := do
  let names := [Timestamp.epochVariable] ++
    ["TOLERANCE", "COARSE_DISCOUNT", "TIMEOUT", "STORE", "REGRESSION_THRESHOLD"].map
      Settings.variableName ++ Tool.keys.map Settings.commandVariable
  names.filterMapM fun name => do return (← IO.getEnv name).map fun value => (name, value)

/-- The present moment in UTC. -/
def present : IO Moment := do
  let seconds := (← Std.Time.Timestamp.now).toSecondsSinceUnixEpoch.val
  return (Moment.ofSeconds? seconds).getD ⟨⟨1970, 1, 1⟩, 0, 0, 0, 0, some 0⟩

/-- The paths that a command line works on. -/
def workingPaths (cwd : String) (words : List String) : List String :=
  cwd :: words.filter fun w => w.startsWith "/" && !w.startsWith (cwd ++ "/")

end Assay.Program

/-- Reads the files, does what the command line asks for and writes back what has changed. -/
def main (words : List String) : IO UInt32 := do
  let cwd := (← IO.currentDir).toString
  let mut disk : Assay.Disk := { top := .dir [("tmp", .dir [])], cwd := (Assay.Path.ofText cwd).names }
  for path in Assay.Program.workingPaths cwd words do
    if let some n ← Assay.Program.readNode path then
      disk := Assay.Program.place disk (Assay.Path.ofText path).names n
  let setting : Assay.CommandLine.Setting :=
    ⟨← Assay.Program.settingVariables, ← Assay.Program.present⟩
  let (r, after) := (Assay.CommandLine.execute setting words).run disk
  Assay.Program.writeChanges disk.top after.top
  IO.print r.stdout
  IO.eprint r.stderr
  match r.exit with
  | .status n | .early n => return UInt32.ofNat n
  | .failed f =>
    IO.eprintln ("error: " ++ f.message)
    return 1
