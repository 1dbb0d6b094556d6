import Assay.Normalize
import Assay.Proofs.Refusals

/-!
# Which outputs are normalized

The output of a tool is normalized unless something in it cannot be taken in at all: a JSON integer
with too many digits, half of a surrogate pair in an XML document, the tool of a SARIF run that is
given and has no fields, or a word for a severity that looks like digits and is no number. Every other
flaw costs one record, or the container, and is counted. The output of a compiler has none of these.
-/

namespace Assay

/-! ## Severities -/

namespace Severity

end Severity

/-! ## Records -/

/-- Whether a computation ends in a fault that is not about one record or container. -/
def Aborts {α : Type} (x : Except Fault α) : Prop := ∃ f, x = .error f ∧ ∀ r, f ≠ .record r

section

variable {α β : Type} {x : Except Fault α} {g : α → Except Fault β}

theorem not_aborts_ok {a : α} : ¬ Aborts (.ok a : Except Fault α) := by
  rintro ⟨f, hf, -⟩
  cases hf

theorem not_aborts_refuse {message preview : String} :
    ¬ Aborts (ToolRecord.refuse message preview : Except Fault α) := by
  rintro ⟨f, hf, h⟩
  cases hf
  exact h _ rfl

end

namespace ToolRecord

end ToolRecord

open ToolRecord

namespace Compiler

end Compiler

namespace Normalized

variable {t : Tool} {x : Crosswalk} {root : Option CorpusRoot} {run : ToolRun}

/-- A finding is made of what the tool said, a file and a severity. -/
theorem findingOf_eq_ok {root : Option (Except Fault CorpusRoot)} {index : Nat} {raw : ToolFinding} {f : Finding} :
    findingOf t x root index raw = .ok f ↔ ∃ file severity, CorpusPath.ofTool root raw.file = .ok file ∧
      Severity.ofNative t.format.severities raw.nativeSeverity = .ok severity ∧
      f = {
        raw, index, file, severity
        line := absoluteLine raw.line t.lineBase
        categories := Classification.sorted (x.resolve (RuleKey.of t.standard raw.ruleId))
        coarse := (absoluteLine raw.line t.lineBase).isNone } := by
  unfold findingOf
  constructor
  · intro h
    obtain ⟨file, hfile, h⟩ := bind_eq_ok.1 h
    obtain ⟨severity, hseverity, h⟩ := bind_eq_ok.1 h
    exact ⟨file, severity, hfile, hseverity, (Except.ok.inj h).symm⟩
  · rintro ⟨file, severity, hfile, hseverity, rfl⟩
    exact bind_eq_ok.2 ⟨file, hfile, bind_eq_ok.2 ⟨severity, hseverity, rfl⟩⟩

/-- A finding keeps what the tool said. -/
theorem raw_of_findingOf {root : Option (Except Fault CorpusRoot)} {index : Nat} {raw : ToolFinding}
    {f : Finding} (h : findingOf t x root index raw = .ok f) : f.raw = raw := by
  obtain ⟨file, severity, -, -, rfl⟩ := findingOf_eq_ok.1 h
  rfl

/-- What every record came to: a finding in the tool's words, or one parse failure. -/
theorem addRecords_account {root : Option (Except Fault CorpusRoot)} {records : List ToolRecord}
    {n m : Normalized} {index : Nat} (h : addRecords t x root run n index records = .ok m) :
    m.tool = n.tool ∧ m.toolVersion = n.toolVersion ∧
    m.findings.map Finding.raw =
      n.findings.map Finding.raw ++ records.filterMap (fun r => (t.format.parse run r).toOption) ∧
    m.findings.length + m.diagnostics.parseFailures =
      n.findings.length + n.diagnostics.parseFailures + records.length := by
  induction records generalizing n index with
  | nil =>
    cases h
    simp
  | cons r rest ih =>
    unfold addRecords at h
    split at h
    · next raw hr =>
      obtain ⟨f, hf, h⟩ := bind_eq_ok.1 h
      obtain ⟨htool, hversion, hraw, hcount⟩ := ih h
      refine ⟨htool, hversion, ?_, ?_⟩
      · rw [hraw, List.filterMap_cons, hr]
        simp [Except.toOption, raw_of_findingOf hf]
      · have hfailures : (count t x n.diagnostics f).parseFailures = n.diagnostics.parseFailures := by
          unfold count
          simp only
          split <;> split <;> rfl
        simp only [hfailures, List.length_append, List.length_singleton] at hcount
        rw [List.length_cons]
        push_cast at hcount ⊢
        omega
    · next fault hr =>
      obtain ⟨htool, hversion, hraw, hcount⟩ := ih h
      refine ⟨htool, hversion, ?_, ?_⟩
      · rw [hraw, List.filterMap_cons, hr]
        rfl
      · simp only [Diagnostics.recordParseFailure] at hcount
        rw [List.length_cons]
        push_cast at hcount ⊢
        omega
    · cases h

end Normalized

/-! ## Containers -/

namespace Sarif

end Sarif

namespace Format

end Format

namespace Normalized

/-- What is made of an output whose version is known. -/
theorem ofOutput_of_version {t : Tool} {x : Crosswalk} {root : Option (Except Fault CorpusRoot)}
    {raw v : String} {version : Option String} (hv : versionOf t version raw = .ok v) :
    ofOutput t x root raw version =
      if Text.isAllBlank raw.toList then .ok ⟨t.key, v, [], .empty⟩
      else match t.format.split raw with
        | .ok records =>
          addRecords t x root ⟨t.key, v⟩ ⟨t.key, v, [], .empty⟩ 0 records
        | .error (.record f) =>
          .ok ⟨t.key, v, [], Diagnostics.empty.recordParseFailure (t.key ++ ": " ++ f.message)⟩
        | .error f => .error f := by
  unfold ofOutput
  rw [hv]
  rfl

end Normalized

end Assay
