import Assay.Proofs.DiskPlaces
import Assay.Proofs.LoadedCorpus
import Assay.Proofs.UnreadableValues

/-!
# Annotations that cannot be checked

Most flaws of an entry are problems, and every problem is collected. `Annotation.Hinders` names the few that end the
reading instead: values that cannot be read, and a file name that no disk takes. Nothing else does
(`escapesIff_defectOf`).
-/

namespace Assay

namespace Disk

variable {d : Disk} {p : Path}

end Disk

namespace Annotation

/-! ## Fields -/

section
variable {d : Disk} {root : Path} {file place : String} {a b : ℤ}

/-- An item of a list of rules that names one. -/
def NamesRule (item : Value) : Prop :=
  item.isMap = true ∧ ∃ standard rule, textOf (item.get "standard") = .ok standard ∧
    textOf (item.first ["ruleId", "rule_id", "rule"]) = .ok rule ∧ standard ≠ "" ∧ rule ≠ ""

end

/-! ## Entries -/

/-- The last line that an entry gives, the first one unless it gives one of its own. -/
def lastLine (raw : Value) (first : Option ℤ) : Except Fault (Option ℤ) :=
  if (raw.first ["lineEnd", "line_end"]).isNull then .ok first else (raw.first ["lineEnd", "line_end"]).lenientInt

/-- The file and the lines that an entry gives. -/
structure Spans (raw : Value) (file : String) (a b : Option ℤ) : Prop where
  file : ∃ text, textOf (raw.first ["file", "file_path"]) = .ok text ∧ file = fileOf text
  first : (raw.first ["lineStart", "line_start", "line"]).lenientInt = .ok a
  last : lastLine raw a = .ok b

/-- The fields of an entry in which nothing is wrong, the note apart. -/
structure IsSound (d : Disk) (root : Path) (raw : Value) : Prop where
  category : ∃ c, Category.read? false (raw.get "category") = .ok (some c)
  severity : ∃ s, severityOf (raw.get "severity") = .ok (some s)
  range : ∃ file a b, Spans raw file (some a) (some b) ∧ Path.isSafeRelative file = true ∧ 1 ≤ a ∧ a ≤ b ∧
    ∃ n : ℕ, Corpus.lineCount d root file = .ok (some n) ∧ b ≤ n
  column : (raw.get "column").isNull = true ∨ ∃ k, (raw.get "column").lenientInt = .ok (some k) ∧ 1 ≤ k
  rules : (raw.first ["standardRules", "standard_rules"]).isNull = true ∨
    ∃ items, (raw.first ["standardRules", "standard_rules"]).list? = some items ∧ ∀ item ∈ items, NamesRule item

section
variable {d : Disk} {root : Path} {raw : Value} {sampleId place : String}

theorem Spans.unique {file file' : String} {a a' b b' : Option ℤ} (h : Spans raw file a b) (h' : Spans raw file' a' b') :
    file = file' ∧ a = a' ∧ b = b' := by
  obtain ⟨t, ht, rfl⟩ := h.file
  obtain ⟨t', ht', rfl⟩ := h'.file
  cases ht.symm.trans ht'
  cases h.first.symm.trans h'.first
  cases h.last.symm.trans h'.last
  exact ⟨rfl, rfl, rfl⟩

end

end Annotation

end Assay
