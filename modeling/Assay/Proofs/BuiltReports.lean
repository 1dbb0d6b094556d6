import Assay.Evaluation
import Assay.Proofs.Decoding
import Assay.Proofs.FrozenCrosswalks
import Assay.Proofs.NormalizedRecords
import Assay.Proofs.PathAgreement
import Assay.Proofs.Results

/-!
# Reports of evaluations

The report of an evaluation has nothing that reading would replace. Its confidences come from a crosswalk
whose rows were checked when they were registered, its findings from the normalizer, which puts at least
one category on each, its defects from a loaded corpus, and its results from the matching.
-/

namespace Assay

/-! ## Normalized findings -/

namespace Normalized

variable {t : Tool} {x : Crosswalk} {root : Option (Except Fault CorpusRoot)}

theorem ordered_of_findingOf (hx : x.IsFrozen) {index : ℕ} {raw : ToolFinding} {f : Finding}
    (h : findingOf t x root index raw = .ok f) : f.Ordered := by
  obtain ⟨file, severity, -, -, rfl⟩ := findingOf_eq_ok.1 h
  obtain ⟨filled, numbers⟩ := hx.resolve (RuleKey.of t.standard raw.ruleId)
  refine ⟨fun hnil => filled ?_, _, rfl, numbers⟩
  exact List.perm_nil.1 ((Sorting.sort_perm _ _).symm.trans (List.Perm.of_eq hnil))

theorem made_of_ofOutput {raw : String} {version : Option String} {n : Normalized}
    (h : ofOutput t x root raw version = .ok n) :
    ∀ f ∈ n.findings, ∃ index raw, findingOf t x root index raw = .ok f := by
  obtain ⟨raws, -, hraws, -⟩ := tallied_of_ofOutput h
  intro f hf
  obtain ⟨⟨found, index⟩, -, hmade⟩ := (mem_of_mapM_eq_ok hraws f).1 hf
  exact ⟨index, found, hmade⟩

end Normalized

/-- A finding that the normalizer put out under a frozen crosswalk. -/
def Finding.IsNormalized (f : Finding) : Prop :=
  ∃ (t : Tool) (x : Crosswalk) (root : Option (Except Fault CorpusRoot)) (raw : String) (version : Option String)
    (n : Normalized), x.IsFrozen ∧ Normalized.ofOutput t x root raw version = .ok n ∧ f ∈ n.findings

theorem Finding.IsNormalized.ordered {f : Finding} (h : f.IsNormalized) : f.Ordered := by
  obtain ⟨t, x, root, raw, version, n, hx, hn, hf⟩ := h
  obtain ⟨index, found, hmade⟩ := Normalized.made_of_ofOutput hn f hf
  exact Normalized.ordered_of_findingOf hx hmade

/-! ## Defects of a loaded corpus -/

theorem Defect.Annotated.plain {count : String → Except Fault (Option ℕ)} {g : Defect} (h : g.Annotated count) :
    g.Plain := by
  have hfirst := h.first
  have hordered := h.ordered
  exact ⟨h.category, by omega⟩

theorem Corpus.plain_of_load {d : Disk} {p : Path} {c : Corpus} (h : load d p = .ok c) :
    ∀ g ∈ c.defects, g.Plain :=
  fun g hg => (annotated_of_load h g (List.mem_mergeSort.1 hg)).plain

/-! ## Results -/

namespace Matching

variable {s : MatchSettings} {fs : List Finding} {ds : List Defect} {rs : List MatchResult}

theorem Shaped.known {r : MatchResult} (h : Shaped r) : ∃ k, MatchKind.ofLabel? r.kind = some k ∧
    (k.needsDefect = true → r.defect.isSome = true) ∧ (k.needsFinding = true → r.finding.isSome = true) := by
  have own : ∀ k : MatchKind, MatchKind.ofLabel? k.label = some k := by
    intro k
    cases k <;> decide
  cases h with
  | matched f d x => exact ⟨.matched, own .matched, fun _ => rfl, fun _ => rfl⟩
  | missed d => exact ⟨.falseNegative, own .falseNegative, fun _ => rfl, nofun⟩
  | unmatched f =>
    refine ⟨_, own _, ?_, fun _ => rfl⟩
    split <;> exact nofun

theorem sound_of_run (h : run s fs ds = .ok rs) (hfs : ∀ f ∈ fs, f.Ordered) (hds : ∀ g ∈ ds, g.Plain) :
    ∀ r ∈ rs, r.Sound := by
  intro r hr
  refine ⟨(shaped_of_matchWith h hr).known, fun f hf => hfs f ?_, fun g hg => hds g ?_⟩
  · exact (findings_of_matchWith h).mem_iff.1 (List.mem_filterMap.2 ⟨r, hr, hf⟩)
  · exact (defects_of_matchWith h).mem_iff.1 (List.mem_filterMap.2 ⟨r, hr, hg⟩)

end Matching

/-! ## Metrics -/

theorem Finding.Same.primary {a b : Finding} (h : a.Same b) : a.primary = b.primary := by
  have hcategories := h.categories
  unfold Finding.primary
  generalize a.categories = cs, b.categories = ds at hcategories
  cases hcategories with
  | nil => rfl
  | cons hab _ => exact hab.1

theorem MatchResult.Same.contribution {a b : MatchResult} (h : a.Same b) :
    Contribution.ofResult a = Contribution.ofResult b := by
  have hfinding := h.finding
  unfold Contribution.ofResult
  rw [h.kind, h.defect]
  generalize a.finding = f, b.finding = g at hfinding
  cases hfinding with
  | none => rfl
  | some hf => simp only [hf.primary]

/-- Equal results have the same metrics. -/
theorem Metrics.ofResults_of_same {as bs : List MatchResult} (h : List.Forall₂ MatchResult.Same as bs) :
    ofResults as = ofResults bs := by
  have hmap : as.mapM Contribution.ofResult = bs.mapM Contribution.ofResult := by
    induction h with
    | nil => rfl
    | cons hab _ ih => rw [List.mapM_cons, List.mapM_cons, hab.contribution, ih]
  rw [ofResults, ofResults, hmap]

/-! ## Reports -/

namespace Report

/-- The reports that evaluations come to: of a loaded corpus and of findings that were normalized under
frozen crosswalks. A report may be marked as incomplete and stamped with an id. -/
inductive IsBuilt : Report → Prop where
  | score {d : Disk} {p : Path} {c : Corpus} {n : Normalized} {x : Crosswalk} {isFile : String → Except Fault Bool}
      {s : MatchSettings} {timestamp : String} {r : Report} :
      Corpus.load d p = .ok c → (∀ f ∈ n.findings, f.IsNormalized) →
        Evaluation.score isFile c x s timestamp n = .ok r → IsBuilt r
  | marked {r : Report} (incomplete : Bool) : IsBuilt r → IsBuilt { r with incomplete }
  | stamped {r : Report} {id : String} : IsBuilt r → id ≠ "" → IsBuilt (r.withRunId id)

theorem sound_of_score {isFile : String → Except Fault Bool} {c : Corpus} {x : Crosswalk} {s : MatchSettings}
    {timestamp : String} {n : Normalized} {r : Report} (h : Evaluation.score isFile c x s timestamp n = .ok r)
    (hfs : ∀ f ∈ n.findings, f.Ordered) (hds : ∀ g ∈ c.defects, g.Plain) :
    r.Sound ∧ ∃ m, Metrics.ofResults r.results = .ok m ∧ m.toValue = r.metrics := by
  obtain ⟨results, hresults, h⟩ := bind_eq_ok.1 h
  obtain ⟨diagnostics, -, h⟩ := bind_eq_ok.1 h
  obtain ⟨m, hm, h⟩ := bind_eq_ok.1 h
  cases h
  have hschema : currentSchema ≠ "" := by decide
  refine ⟨⟨hschema, nofun, ⟨_, rfl, by simp, by simp⟩, ⟨_, rfl, by simp, by simp⟩, ?_⟩, m, hm, rfl⟩
  exact Matching.sound_of_run hresults hfs hds

/-- The report of an evaluation has nothing that reading would replace, and its metrics are those of its
results. -/
theorem IsBuilt.sound {r : Report} (h : r.IsBuilt) :
    r.Sound ∧ ∃ m, Metrics.ofResults r.results = .ok m ∧ m.toValue = r.metrics := by
  induction h with
  | score hload hn hr => exact sound_of_score hr (fun f hf => (hn f hf).ordered) (Corpus.plain_of_load hload)
  | marked incomplete _ ih =>
    obtain ⟨⟨hschema, hid, hmatching, hmetrics, hresults⟩, hm⟩ := ih
    exact ⟨⟨hschema, hid, hmatching, hmetrics, hresults⟩, hm⟩
  | stamped _ hne ih =>
    obtain ⟨⟨hschema, -, hmatching, hmetrics, hresults⟩, hm⟩ := ih
    exact ⟨⟨hschema, fun e => hne (Option.some.inj e), hmatching, hmetrics, hresults⟩, hm⟩

end Report

/-! ## An evaluation of two findings -/

/-- The lines of an output of JSON lines are its records if none of them is blank. -/
theorem JsonLines.split_of_lines {output : String} (lines : List String)
    (h : Text.lines output.toList = lines.map String.toList)
    (filled : ∀ l ∈ lines, Text.isAllBlank l.toList = false) :
    Tool.jsonLines.format.split output = .ok (lines.map fun l => .value (.text l)) := by
  have hfilled : ∀ l ∈ lines.map String.toList, (!Text.isAllBlank l) = true := by
    simpa using filled
  change Except.ok (JsonLines.split output) = _
  rw [JsonLines.split, h, List.filter_eq_self.2 hfilled]
  simp

namespace Corpus.Nested

/-- A line on a rule with a category, in the annotated file. -/
def hitLine : String := "\x7b\"ruleId\":\"R1\",\"file\":\"/corpus/corpus/a.c\",\"line\":\"1\"\x7d"

/-- A line on a rule without a category, in no file. -/
def strayLine : String := "\x7b\"ruleId\":\"R2\",\"file\":\"/corpus/d.c\",\"line\":\"1\"\x7d"

/-- The output of a tool. -/
def output : String := hitLine ++ "\n" ++ strayLine

def crosswalk : Crosswalk := ⟨"v1", [⟨⟨"generic", "R1"⟩, .other, 1⟩]⟩

def hit : Finding where
  raw := ⟨"jsonl", "unknown", "R1", "/corpus/corpus/a.c", some 1, none, "", none⟩
  index := 0
  file := "corpus/a.c"
  line := some 1
  severity := .medium
  categories := [⟨.other, 1⟩]
  coarse := false

def stray : Finding where
  raw := ⟨"jsonl", "unknown", "R2", "/corpus/d.c", some 1, none, "", none⟩
  index := 1
  file := "d.c"
  line := some 1
  severity := .medium
  categories := [.uncovered]
  coarse := false

def normalized : Normalized :=
  ⟨"jsonl", "unknown", [hit, stray], { Diagnostics.empty with coverageGaps := 1, gapRules := ["generic:R2"] }⟩

def results : List MatchResult := [MatchResult.matched hit defect 1, MatchResult.unmatched stray]

theorem isFrozen_crosswalk : crosswalk.IsFrozen := by
  have hregister : (⟨"v1", [], none⟩ : Crosswalk.Builder).register (.text "generic") (.text "R1") (.text "other")
      (.float 1) = .ok ⟨"v1", crosswalk.rows, none⟩ :=
    Crosswalk.Builder.register_eq_ok.2 ⟨rfl, _, Crosswalk.Builder.rowOf_listed, rfl⟩
  refine ⟨_, .freeze (.register (.start Crosswalk.Builder.start_empty) hregister), ?_⟩
  simp [Crosswalk.Builder.freeze, Crosswalk.Builder.table, Crosswalk.Builder.snapshot, crosswalk]

theorem split_output :
    Tool.jsonLines.format.split output = .ok [.value (.text hitLine), .value (.text strayLine)] :=
  JsonLines.split_of_lines [hitLine, strayLine] (by decide) (by decide)

theorem parse_hitLine :
    Tool.jsonLines.format.parse ⟨"jsonl", "unknown"⟩ (.value (.text hitLine)) = .ok hit.raw := by
  have hread : Json.read "\x7b\"ruleId\":\"R1\",\"file\":\"/corpus/corpus/a.c\",\"line\":\"1\"\x7d" =
      .ok (.record [("ruleId", .text "R1"), ("file", .text "/corpus/corpus/a.c"), ("line", .text "1")]) := by cbv
  simp only [Tool.jsonLines, Format.parse, Format.valueOf, JsonLines.parse, JsonLines.objectOf,
    ToolRecord.readContainer, hitLine, hread]
  exact eq_ok_of_toOption rfl

theorem parse_strayLine :
    Tool.jsonLines.format.parse ⟨"jsonl", "unknown"⟩ (.value (.text strayLine)) = .ok stray.raw := by
  have hread : Json.read "\x7b\"ruleId\":\"R2\",\"file\":\"/corpus/d.c\",\"line\":\"1\"\x7d" =
      .ok (.record [("ruleId", .text "R2"), ("file", .text "/corpus/d.c"), ("line", .text "1")]) := by cbv
  simp only [Tool.jsonLines, Format.parse, Format.valueOf, JsonLines.parse, JsonLines.objectOf,
    ToolRecord.readContainer, strayLine, hread]
  exact eq_ok_of_toOption rfl

theorem findingOf_hit : Normalized.findingOf .jsonLines crosswalk (some (.ok corpus.top)) 0 hit.raw = .ok hit :=
  eq_ok_of_toOption (by decide)

theorem findingOf_stray : Normalized.findingOf .jsonLines crosswalk (some (.ok corpus.top)) 1 stray.raw = .ok stray :=
  eq_ok_of_toOption (by decide)

theorem ofOutput_output :
    Normalized.ofOutput .jsonLines crosswalk (some (.ok corpus.top)) output none = .ok normalized := by
  have hversion : Normalized.versionOf .jsonLines none output = .ok "unknown" := rfl
  have hfilled : Text.isAllBlank output.toList = false := by decide
  have hhit : Normalized.count .jsonLines crosswalk .empty hit = .empty := by decide
  have hstray : Normalized.count .jsonLines crosswalk .empty stray = normalized.diagnostics := by decide +kernel
  have hkey : Tool.jsonLines.key = "jsonl" := rfl
  simp [Normalized.ofOutput, hversion, hfilled, split_output, Normalized.addRecords, hkey, parse_hitLine, findingOf_hit,
    parse_strayLine, findingOf_stray, hhit, hstray, bind, Except.bind, normalized]

theorem run_results : Matching.run Matching.plainSettings normalized.findings corpus.defects = .ok results := by
  have hdefects : corpus.defects = [defect] := List.mergeSort_singleton _
  have hfiles : Matching.files [hit, stray] [defect] = ["corpus/a.c", "d.c"] := by
    have hdistinct : Diagnostics.distinct ([defect].map Defect.file ++ [hit, stray].map Finding.file) =
        ["corpus/a.c", "d.c"] := by decide
    rw [Matching.files, Diagnostics.canonical, hdistinct]
    exact List.mergeSort_of_pairwise (by decide)
  have hhit : Matching.matchFile (pairWeight Matching.plainSettings) (Matching.findingsIn "corpus/a.c" [hit, stray])
      (Matching.defectsIn "corpus/a.c" [defect]) = .ok [MatchResult.matched hit defect 1] := by
    have hfs : Matching.findingsIn "corpus/a.c" [hit, stray] = [hit] := List.mergeSort_singleton _
    have hds : Matching.defectsIn "corpus/a.c" [defect] = [defect] := List.mergeSort_singleton _
    rw [hfs, hds]
    exact Matching.matchFile_lone (eq_ok_of_toOption (by decide +kernel))
  have hstray : Matching.matchFile (pairWeight Matching.plainSettings) (Matching.findingsIn "d.c" [hit, stray])
      (Matching.defectsIn "d.c" [defect]) = .ok [MatchResult.unmatched stray] :=
    eq_ok_of_toOption (by decide +kernel)
  have hsorted : Matching.sorted results = .ok results := by
    obtain ⟨k, k', hk, hk', hle⟩ : ∃ k k', (MatchResult.matched hit defect 1).key = .ok k ∧
        (MatchResult.unmatched stray).key = .ok k' ∧ k'.before k = false := ⟨_, _, rfl, rfl, by decide⟩
    simp only [Matching.sorted, results, hk, hk', List.mapM_cons, List.mapM_nil, bind, Except.bind, pure, Except.pure]
    rw [List.mergeSort_of_pairwise (by simp [hle])]
    rfl
  rw [hdefects]
  simp only [Matching.run, Matching.matchWith, normalized, hfiles, hhit, hstray, List.mapM_cons, List.mapM_nil, bind,
    Except.bind, pure, Except.pure]
  exact hsorted

/-- Whether a file is in the corpus. -/
def isFile (file : String) : Except Fault Bool := disk.isFile (corpus.path.append (Path.ofText file))

def metrics : Metrics := .ofContributions [.matched .other false, .unclassified]

/-- The report of the evaluation. -/
def report : Report where
  schemaVersion := Report.currentSchema
  runId := none
  corpusVersion := corpus.version
  tool := "jsonl"
  toolVersion := "unknown"
  crosswalkVersion := "v1"
  timestamp := "2024-01-01T00:00:00Z"
  incomplete := false
  matching := Matching.plainSettings.toValue
  metrics := metrics.toValue
  diagnostics :=
    { normalized.diagnostics with unclassifiedExtras := 1, unknownFiles := 1, unknownFilePaths := ["d.c"] }
  results := results

theorem score_normalized : Evaluation.score isFile corpus crosswalk Matching.plainSettings "2024-01-01T00:00:00Z"
    normalized = .ok report := by
  have hmetrics : Metrics.ofResults results = .ok metrics := rfl
  have hfiles : corpus.files = ["corpus/a.c"] := List.mergeSort_singleton _
  have hextras : (results.filter (·.kind == MatchKind.unclassified.label)).length = 1 := by decide
  have hcount : Evaluation.countUnknown isFile ["corpus/a.c"] { normalized.diagnostics with unclassifiedExtras := 1 }
      normalized.findings = .ok report.diagnostics := by
    have hmissing : isFile "d.c" = .ok false := eq_ok_of_toOption (by decide)
    have hascending : Diagnostics.ascending ["d.c"] = ["d.c"] := List.mergeSort_singleton _
    simp [Evaluation.countUnknown, normalized, hit, stray, hmissing, bind, Except.bind, report,
      Diagnostics.recordUnknownFile, hascending, Diagnostics.maxKept, Diagnostics.empty]
  simp only [Evaluation.score, run_results, hmetrics, hfiles, hextras, bind, Except.bind, Nat.cast_one]
  rw [hcount]
  rfl

theorem isBuilt_report : report.IsBuilt :=
  .score load_corpus (fun _ hf => ⟨_, _, _, _, _, _, isFrozen_crosswalk, ofOutput_output, hf⟩) score_normalized

end Corpus.Nested

end Assay
