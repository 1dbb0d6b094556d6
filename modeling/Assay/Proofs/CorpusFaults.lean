import Assay.Proofs.AnnotationFaults
import Assay.Proofs.CorpusDigests
import Assay.Proofs.PathAgreement

/-!
# Corpora that are neither loaded nor refused

A corpus is loaded, or refused with all its problems, unless something below it ends the reading otherwise. For one
file that is a document at which the reader itself gives up, a name or a language that is too long, or an entry that
cannot be checked (`Corpus.FileHinders`); a file whose sample has a name that is taken is not looked into. A version
can be too long as well, and a corpus without one has none if a file has a name that is no text.
`Corpus.load_reports_iff` says that there is nothing else.
-/

namespace Assay

section
variable {α β : Type} {x : Except Fault α} {g : α → Except Fault β} {P : Prop}

end

/-! ## Places and documents -/

namespace Path

end Path

namespace Disk

end Disk

namespace Document

end Document

namespace Annotation

variable {d : Disk} {root : Path} {path sampleId : String} {doc : Value}

end Annotation

namespace Corpus

variable {d : Disk} {root : Path}

/-! ## Files -/

/-- The name that an annotation file gives its sample, if it can be read so far. -/
def declared (root : Path) (file : String × List UInt8) : List String :=
  match documentOf root file with
  | .ok (.ok doc) =>
    match Annotation.headerOf file.1 doc with
    | .ok (.ok h) => [h.sampleId]
    | _ => []
  | _ => []

section
variable {names : List String} {file : String × List UInt8} {rest files : List (String × List UInt8)}

end

/-! ## Versions -/

namespace Superscript

/-- The only annotation. -/
def source : List UInt8 :=
  Utf8.encode
    "[\x7b\"id\":\"d\",\"category\":\"other\",\"file\":\"a.c\",\"line\":\"1\",\"severity\":\"²\"\x7d]"

/-- A corpus with one annotation and the file that it is about. -/
def disk : Disk :=
  { top := .dir [("corpus", .dir [("a.c", .file [0x78, 0x0A]), ("s.gt.json", .file source)])]
    cwd := [] }

/-- The place of the corpus. -/
def top : Path := Path.ofNames ["corpus"]

/-- What the annotation says. -/
def item : Value :=
  .record [("id", .text "d"), ("category", .text "other"), ("file", .text "a.c"), ("line", .text "1"),
    ("severity", .text "²")]

theorem documentOf_source : documentOf top ("s.gt.json", source) = .ok (.ok (.list [item])) := by
  have htext : Disk.textOf source = .ok
      "[\x7b\"id\":\"d\",\"category\":\"other\",\"file\":\"a.c\",\"line\":\"1\",\"severity\":\"²\"\x7d]" :=
    eq_ok_of_toOption (by decide)
  exact documentOf_of_json htext (by decide +kernel) (by cbv)

end Superscript

end Corpus

end Assay
