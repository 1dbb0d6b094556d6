import Assay.Diagnostics
import Assay.Files.Disk
import Assay.Shell.Words
import Assay.Text.Case

/-!
# Command templates

A template is a command with places: one for the corpus, one for a file that the tool writes its
report to, and one that stands for every source file of the corpus and must be a word of its own.
The template is cut into words before its places are filled, so that what fills them is never cut.
-/

namespace Assay.Template

/-- The place of the corpus. -/
def corpusPlace : String := "\x7bcorpus\x7d"

/-- The place of the file that the tool writes its report to. -/
def outputPlace : String := "\x7boutput\x7d"

/-- The word that stands for every source file. -/
def sourcesPlace : String := "\x7bsources\x7d"

/-- Whether a part occurs in a text. -/
def occurs (part : List Char) : List Char → Bool
  | [] => part.isEmpty
  | c :: rest => part.isPrefixOf (c :: rest) || occurs part rest

/-- A text with every place of a part replaced, the first `skip` characters being part of a place
that has been replaced already. -/
def fillFrom (part new : List Char) (skip : Nat) : List Char → List Char
  | [] => []
  | c :: rest =>
    match skip with
    | n + 1 => fillFrom part new n rest
    | 0 =>
      if part.isPrefixOf (c :: rest) then new ++ fillFrom part new (part.length - 1) rest
      else c :: fillFrom part new 0 rest

/-- A text with every place of a part replaced. -/
def fill (part new : String) (text : String) : String :=
  String.ofList (fillFrom part.toList new.toList 0 text.toList)

/-- Whether a template has a place for a file that the tool writes to. -/
def usesOutput (template : String) : Bool := occurs outputPlace.toList template.toList

/-- The suffixes of source files, in lower case. -/
def sourceSuffixes : List String := [".c", ".cc", ".cpp", ".cxx", ".c++"]

/-- Whether a name is that of a source file. -/
def isSource (name : String) : Bool :=
  sourceSuffixes.contains (Text.toLower (Path.suffixOf name))

/-- The source files below a path, in ascending order. -/
def sources (d : Disk) (root : Path) : Except Fault (List String) := do
  match ← d.find? root with
  | some n =>
    let found := n.files.filter fun (names, _) => isSource (names.getLast?.getD "")
    return Diagnostics.ascending
      (found.map fun (names, _) => (root.append ⟨"", names⟩).toText)
  | none => return []

/-- The words that one word of a template becomes. -/
def fillWord (sources : List String) (corpus : String) (output : Option String) (word : String) :
    Except Fault (List String) :=
  if word = sourcesPlace then .ok sources
  else
    let filled := fill corpusPlace corpus word
    if usesOutput filled then
      match output with
      | some path => .ok [fill outputPlace path filled]
      | none => .error (.settings .noOutputPath)
    else .ok [filled]

/-- The words of a template; there must be one. -/
def words (template : String) : Except Fault (List String) :=
  match Shell.split template with
  | .error cause => .error (.settings (.template template cause))
  | .ok [] => .error (.settings .emptyTemplate)
  | .ok ws => .ok ws

/-- The command that a template stands for. -/
def command (d : Disk) (template : String) (corpus : Path) (output : Option Path) :
    Except Fault (List String) := do
  let ws ← words template
  let files ← if ws.contains sourcesPlace then sources d corpus else pure []
  return (← ws.mapM (fillWord files corpus.toText (output.map Path.toText))).flatten

end Assay.Template
