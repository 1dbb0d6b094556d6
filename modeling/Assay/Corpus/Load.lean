import Assay.Corpus.Annotation
import Assay.Digest
import Assay.Files.Document

/-!
# Loading a corpus

Ground truth is all or nothing: if anything is wrong with any annotation, the corpus is not loaded
and every problem is reported. The version of a corpus is the one its manifest gives, or else a
digest of its annotation files.
-/

namespace Assay.Corpus

/-- The name of the file that may give a corpus its version. -/
def manifestName : String := "corpus.yaml"

/-- The paths of the annotation files below a directory, relative to it, in ascending order.
Directories for compiled files are passed over. -/
def annotationFiles (root : List String) (n : Node) : List (String × List UInt8) :=
  let found := n.files.filter fun (names, _) =>
    Annotation.isName (names.getLast?.getD "") && !(root ++ names).contains "__pycache__"
  (found.map fun (names, bytes) => (Path.joined names, bytes)).mergeSort
    fun a b => !Text.before b.1 a.1

/-- The number of lines of a file of the corpus, if there is such a file. -/
def lineCount (d : Disk) (root : Path) (file : String) : Except Fault (Option Nat) := do
  let p := root.append (Path.ofText file)
  if !(← d.isFile p) then return none
  return some (Text.lines (← d.readLossy p).toList).length

/-- The version in a manifest, if it gives one. -/
def manifestVersion? (doc : Value) : Except Fault (Option String) :=
  let v := doc.get "version"
  if v.isNull || v.same (.text "") then .ok none else (v.toText?.map some).mapError .numeral

/-- The bytes that stand for an annotation file in a digest: its path and its content, each ended by a
zero byte. A name that is no text has no bytes here. -/
def entryOf (file : String × List UInt8) : Except Utf8.EncodeError (List UInt8) := do
  return (← Utf8.encode? file.1) ++ [0] ++ file.2 ++ [0]

/-- The bytes that stand for annotation files in a digest. -/
def signature (files : List (String × List UInt8)) : Except Utf8.EncodeError (List UInt8) := do
  return (← files.mapM entryOf).flatten

/-- The digits of a digest that a version shows. -/
def digestWidth : Nat := 12

/-- The version of a corpus without one of its own. -/
def digestVersion (files : List (String × List UInt8)) : Except Fault String := do
  let bytes ← (signature files).mapError Fault.unencodable
  return "sha256:" ++ String.ofList ((Digest.sha256 bytes).take digestWidth)

/-- The version of a corpus. -/
def versionOf (d : Disk) (root : Path) (files : List (String × List UInt8)) :
    Except Fault String := do
  let manifest := root.child manifestName
  if !(← d.isFile manifest) then digestVersion files
  else
    match Document.read d manifest with
    | .ok doc =>
      match ← manifestVersion? doc with
      | some version => return version
      | none => digestVersion files
    | .error f => throw (if f.isOfValue then .corpus [manifestName ++ ": " ++ f.message] else f)

/-- The document of an annotation file. A file that cannot be read as a document is a problem. -/
def documentOf (root : Path) (file : String × List UInt8) :
    Except Fault (Except String Value) :=
  let p := root.append (Path.ofText file.1)
  match Disk.textOf file.2 >>= Document.ofText p with
  | .ok doc => .ok (.ok doc)
  | .error f => if f.isOfValue then .ok (.error (file.1 ++ ": " ++ f.message)) else .error f

/-- Reads the annotation files after those whose samples are known: all samples, and all problems. -/
def readSamples (count : String → Except Fault (Option Nat)) (root : Path) (known : List Sample) :
    List (String × List UInt8) → Except Fault (List Sample × List String)
  | [] => .ok (known, [])
  | file :: rest => do
    match ← documentOf root file with
    | .error problem =>
      let (samples, problems) ← readSamples count root known rest
      return (samples, problem :: problems)
    | .ok doc =>
      match ← Annotation.headerOf file.1 doc with
      | .error problem =>
        let (samples, problems) ← readSamples count root known rest
        return (samples, problem :: problems)
      | .ok h =>
        match known.find? (·.id == h.sampleId) with
        | some other =>
          let (samples, problems) ← readSamples count root known rest
          return (samples, (file.1 ++ ": sample id " ++ Text.quoted h.sampleId ++
            " already declared in " ++ other.annotation) :: problems)
        | none =>
          let (sample, own) ← Annotation.sampleOf count file.1 h
          let (samples, problems) ← readSamples count root (known ++ [sample]) rest
          return (samples, own ++ problems)

/-- Samples in the order of their names. -/
def sortSamples (samples : List Sample) : List Sample :=
  samples.mergeSort fun a b => !Text.before b.id a.id

/-- The annotation files of a directory, of which there must be one. -/
def requireAnnotations (d : Disk) (root : Path) : Except Fault (List (String × List UInt8)) := do
  match ← d.find? root with
  | some (.dir es) =>
    match annotationFiles root.names (.dir es) with
    | [] => throw (.corpus ["no annotation files (*.gt.yaml|*.gt.yml|*.gt.json) under " ++
        root.toText])
    | files => return files
  | _ => throw (.corpus ["corpus root " ++ root.toText ++ " is not a directory"])

/-- Loads the corpus in a directory. -/
def load (d : Disk) (p : Path) : Except Fault Corpus := do
  let root ← p.resolve? d.cwd
  let files ← requireAnnotations d root
  let (samples, problems) ← readSamples (lineCount d root) root [] files
  if !problems.isEmpty then throw (.corpus problems)
  return { root := root.names, version := ← versionOf d root files, samples := sortSamples samples }

/-- The directory of a corpus. -/
def path (c : Corpus) : Path := Path.ofNames c.root

/-- The top of a corpus as findings are compared with it. -/
def top (c : Corpus) : CorpusRoot := ⟨c.path.toText, c.path.toText⟩

end Assay.Corpus
