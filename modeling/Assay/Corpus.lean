import Assay.Defect
import Assay.Diagnostics

/-!
# Corpora

A corpus is a directory of source files with annotations. Each annotation file describes one sample:
its name, its language and the defects that are known to be in it. The samples of a corpus stand in
the order of their names and the defects of a sample in the order of their places.
-/

namespace Assay

/-- One annotated sample. -/
structure Sample where
  id : String
  language : String
  defects : List Defect
  /-- The path of its annotation file, relative to the corpus. -/
  annotation : String
  deriving Repr, DecidableEq, Inhabited

namespace Sample

/-- The files that defects of the sample are in, in ascending order. -/
def files (s : Sample) : List String := Diagnostics.canonical (s.defects.map Defect.file)

end Sample

/-- A corpus: where it is, its version, and its samples. -/
structure Corpus where
  /-- The names that lead from the top of the disk to the corpus. -/
  root : List String
  version : String
  samples : List Sample
  deriving Repr, Inhabited

namespace Corpus

/-- Every defect of every sample, sample by sample. -/
def listed (c : Corpus) : List Defect := c.samples.flatMap Sample.defects

/-- The defects of a sample, none if there is no such sample. -/
def lookup (c : Corpus) (id : String) : List Defect :=
  ((c.samples.find? (·.id == id)).map Sample.defects).getD []

/-- The order of the defects of a whole corpus: place, then sample. -/
def defectBefore (a b : Defect) : Bool :=
  a.before b || (!b.before a && Text.before a.sampleId b.sampleId)

/-- Every defect in the order of places. -/
def defects (c : Corpus) : List Defect := c.listed.mergeSort fun a b => !defectBefore b a

/-- The files that defects are in, in ascending order. -/
def files (c : Corpus) : List String := Diagnostics.canonical (c.listed.map Defect.file)

/-- The names of the categories that occur, in ascending order, with the numbers of defects. -/
def categoryCounts (c : Corpus) : List (String × Nat) :=
  let labels := c.listed.map (·.category.label)
  (Diagnostics.canonical labels).map fun l => (l, labels.count l)

/-- The number of conditional defects. -/
def conditional (c : Corpus) : Nat := (c.listed.filter (·.conditional)).length

end Corpus

end Assay
