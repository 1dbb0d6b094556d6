import Assay.Proofs.BuiltReports

/-!
# Recovery record by record

A record that cannot be read costs itself and nothing else. The findings of an output are made of what could
be read, one after the other and numbered without gaps; every other record is counted, and the first messages
are kept. The findings are therefore the same if the records that were rejected are taken out
(`Normalized.recovered_of_ofOutput`).
-/

namespace Assay

namespace Normalized

variable {t : Tool} {x : Crosswalk} {root : Option (Except Fault CorpusRoot)} {records : List ToolRecord}

/-! ## An output -/

/-- What a normalized output holds of the records that it was cut into. -/
structure Recovered (t : Tool) (x : Crosswalk) (root : Option (Except Fault CorpusRoot)) (records : List ToolRecord)
    (n : Normalized) : Prop where
  /-- The findings are made of what was read, in the order of the records, and numbered without gaps. -/
  findings : findingsOf t x root 0 (readings t ⟨t.key, n.toolVersion⟩ records) = .ok n.findings
  numbers : n.findings.map Finding.index = (List.range n.findings.length).map Int.ofNat
  /-- Every other record is rejected, and counted. -/
  failures : n.diagnostics.parseFailures = records.countP (rejects t ⟨t.key, n.toolVersion⟩)
  account : n.diagnostics.parseFailures + n.findings.length = records.length
  /-- The first messages are kept, each with the number of its record. -/
  errors : n.diagnostics.parseErrors = (refusals t ⟨t.key, n.toolVersion⟩ 0 records).take Diagnostics.maxKept
  kept : n.diagnostics.parseErrors.length = min (Diagnostics.maxKept : ℤ) n.diagnostics.parseFailures
  coarse : n.diagnostics.coarseLocations = n.findings.countP (·.line.isNone)
  gaps : n.diagnostics.coverageGaps = n.findings.countP fun f => !f.isCovered t x
  /-- The labels of rules that are not covered strictly ascend. -/
  ascending : n.diagnostics.gapRules.Pairwise fun a b => Text.before a b = true
  labels : ∀ l, l ∈ n.diagnostics.gapRules ↔
    ∃ f ∈ n.findings, f.isCovered t x = false ∧ (RuleKey.of t.standard f.raw.ruleId).label = l
  /-- The records that are not rejected have the same findings by themselves. -/
  alone : ∃ m, addRecords t x root ⟨t.key, n.toolVersion⟩ ⟨t.key, n.toolVersion, [], .empty⟩ 0
    (records.filter fun r => !rejects t ⟨t.key, n.toolVersion⟩ r) = .ok m ∧ m.findings = n.findings

theorem recovered_of_addRecords {version : String} {n : Normalized}
    (h : addRecords t x root ⟨t.key, version⟩ ⟨t.key, version, [], .empty⟩ 0 records = .ok n) :
    Recovered t x root records n := by
  obtain ⟨-, -, -, haccount⟩ := addRecords_account h
  obtain ⟨hparse, new, hnew, rfl⟩ := addRecords_none_eq_ok_iff.1 h
  have hlength := length_refusals t ⟨t.key, version⟩ 0 records
  have hindexes := indexes_of_findingsOf hnew
  have hnumber : new.length = (readings t ⟨t.key, version⟩ records).length := by
    simpa using congrArg List.length hindexes
  exact {
    findings := hnew
    numbers := by rw [hindexes, ← hnumber, List.range_eq_range']
    failures := by rw [← hlength, tally]
    account := by simpa [Diagnostics.empty, add_comm] using haccount
    errors := rfl
    kept := by simp [tally, List.length_take]
    coarse := rfl
    gaps := rfl
    ascending := Diagnostics.canonical_pairwise _
    labels := fun l => by simp [tally, Diagnostics.mem_canonical, gapLabels, and_assoc]
    alone := by
      refine ⟨_, addRecords_none_eq_ok_iff.2 ⟨fun r hr => hparse r (List.mem_of_mem_filter hr), new, ?_, rfl⟩, rfl⟩
      rwa [readings_filter] }

/-- **Recovery.** A normalized output that is cut into records has the findings of those that can be read, in
their order, and counts the rest; one that cannot be cut has no finding, and counts as one failure. -/
theorem recovered_of_ofOutput {output : String} {version : Option String} {n : Normalized}
    (h : ofOutput t x root output version = .ok n) (filled : Text.isAllBlank output.toList = false) :
    (∀ records, t.format.split output = .ok records → Recovered t x root records n) ∧
      ∀ f, t.format.split output = .error f → n.findings = [] ∧ n.diagnostics.parseFailures = 1 ∧
        ∃ r, f = .record r ∧ n.diagnostics.parseErrors = [t.key ++ ": " ++ r.message] := by
  obtain ⟨v, hv, -⟩ := bind_eq_ok.1 h
  rw [ofOutput_of_version hv, filled, if_neg Bool.false_ne_true] at h
  cases hsplit : t.format.split output with
  | ok records =>
    rw [hsplit] at h
    refine ⟨fun records' he => ?_, fun f hf => (nomatch hf)⟩
    cases he
    exact recovered_of_addRecords h
  | error f =>
    refine ⟨fun records he => (nomatch he), fun f' he => ?_⟩
    cases he
    rw [hsplit] at h
    cases f with
    | record r =>
      cases h
      exact ⟨rfl, rfl, r, rfl, rfl⟩
    | _ => cases h

end Normalized

/-! ## A line that is no object -/

namespace Corpus.Nested

/-- The lines of the output with one between them that is no object. -/
def spoiled : String := hitLine ++ "\n[]\n" ++ strayLine

def spoiledRecords : List ToolRecord := [.value (.text hitLine), .value (.text "[]"), .value (.text strayLine)]

theorem split_spoiled : Tool.jsonLines.format.split spoiled = .ok spoiledRecords :=
  JsonLines.split_of_lines [hitLine, "[]", strayLine] (by decide) (by decide)

theorem parse_spoiledLine : Tool.jsonLines.format.parse ⟨"jsonl", "unknown"⟩ (.value (.text "[]")) =
    .error (.record ⟨"JSON line is not an object", some "[]"⟩) := by
  have hread : Json.read "[]" = .ok (.list []) := by cbv
  simp only [Tool.jsonLines, Format.parse, Format.valueOf, JsonLines.parse, JsonLines.objectOf,
    ToolRecord.readContainer, hread]
  rfl

end Corpus.Nested

open Corpus.Nested in
theorem Normalized.recovered_of_ofOutput_spoiled : ∃ n,
    ofOutput .jsonLines crosswalk (some (.ok corpus.top)) spoiled none = .ok n ∧
      Text.isAllBlank spoiled.toList = false ∧ n.findings = [hit, stray] ∧
      Recovered .jsonLines crosswalk (some (.ok corpus.top)) spoiledRecords n := by
  have filled : Text.isAllBlank spoiled.toList = false := by decide +kernel
  have hreadings : readings .jsonLines ⟨"jsonl", "unknown"⟩ spoiledRecords = [hit.raw, stray.raw] := by
    rw [spoiledRecords, readings_cons_of_ok parse_hitLine, readings_cons_of_error parse_spoiledLine,
      readings_cons_of_ok parse_strayLine, readings, List.filterMap_nil]
  have hfindings : findingsOf .jsonLines crosswalk (some (.ok corpus.top)) 0 [hit.raw, stray.raw] =
      .ok [hit, stray] :=
    findingsOf_cons_eq_ok.2 ⟨hit, [stray], findingOf_hit,
      findingsOf_cons_eq_ok.2 ⟨stray, [], findingOf_stray, rfl, rfl⟩, rfl⟩
  have hparse : ∀ r ∈ spoiledRecords, ¬ Aborts (Tool.jsonLines.format.parse ⟨"jsonl", "unknown"⟩ r) := by
    simp only [spoiledRecords, List.forall_mem_cons, parse_hitLine, parse_spoiledLine, parse_strayLine]
    exact ⟨not_aborts_ok, not_aborts_refuse, not_aborts_ok, List.forall_mem_nil _⟩
  have hversion : versionOf .jsonLines none spoiled = .ok "unknown" := rfl
  obtain ⟨n, hn, hfs⟩ : ∃ n, ofOutput .jsonLines crosswalk (some (.ok corpus.top)) spoiled none = .ok n ∧
      n.findings = [hit, stray] := by
    rw [ofOutput_of_version hversion, filled, if_neg Bool.false_ne_true, split_spoiled]
    exact ⟨_, addRecords_none_eq_ok_iff.2 ⟨hparse, [hit, stray], hreadings ▸ hfindings, rfl⟩, rfl⟩
  exact ⟨n, hn, filled, hfs, (recovered_of_ofOutput hn filled).1 _ split_spoiled⟩

end Assay
