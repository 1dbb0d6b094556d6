import Assay.Proofs.Accounting
import Assay.Proofs.BuiltReports

/-!
# The numbers of a report agree

A report counts one thing in several places: the findings of rules that the crosswalk does not cover are its
gaps while the output is normalized, its unclassified findings once they are matched, and are left out of
every category when the metrics are made. A rule that is covered always gives a canonical category, even with
confidence zero, so the three counts are one number (`Evaluation.numbers_agree`).
-/

namespace Assay

/-! ## Covered rules -/

namespace Normalized

variable {t : Tool} {x : Crosswalk} {root : Option (Except Fault CorpusRoot)} {index : ℕ} {raw : ToolFinding}
  {f : Finding}

/-- The categories of a finding are those of its rule. -/
theorem categories_of_findingOf (h : findingOf t x root index raw = .ok f) :
    f.categories.Perm (x.resolve (RuleKey.of t.standard f.raw.ruleId)) := by
  obtain ⟨file, severity, -, -, rfl⟩ := findingOf_eq_ok.1 h
  exact Sorting.sort_perm _ _

/-- A finding of a covered rule counts for a canonical category. -/
theorem classified_of_covered (hx : x.IsFrozen) (h : findingOf t x root index raw = .ok f)
    (hf : f.isCovered t x = true) : f.isUnclassified = false ∧ f.primary ≠ .unknown := by
  obtain ⟨hne, hall⟩ := hx.resolve_of_covers hf
  have hperm := categories_of_findingOf h
  have hcanonical : ∀ c ∈ f.categories, c.category ≠ .unknown := by
    intro c hc
    simpa [Category.isCanonical] using (hall c (hperm.mem_iff.1 hc)).1
  unfold Finding.isUnclassified Finding.primary
  cases hcs : f.categories with
  | nil =>
    rw [hcs] at hperm
    exact absurd hperm.nil_eq.symm hne
  | cons c cs =>
    have hc := hcanonical c (hcs ▸ List.mem_cons_self ..)
    simp [hc]

/-- A finding of any other rule has no category, and no confidence in one. -/
theorem unclassified_of_not_covered (h : findingOf t x root index raw = .ok f) (hf : f.isCovered t x = false) :
    f.isUnclassified = true ∧ ∀ c, f.confidenceFor c = 0 := by
  have hperm := categories_of_findingOf h
  rw [Crosswalk.resolve_of_not_covers hf] at hperm
  have hcategories := hperm.eq_singleton
  have hzero : ¬ (0 : Float) < 0 := by decide
  refine ⟨?_, fun c => ?_⟩
  · rw [Finding.isUnclassified, hcategories]
    rfl
  · rw [Finding.confidenceFor, hcategories]
    simp [Classification.uncovered, hzero]

/-! ## Gaps -/

/-- The diagnostics count the findings of rules that are not covered, and no file yet. -/
structure Counted (t : Tool) (x : Crosswalk) (n : Normalized) : Prop where
  gaps : n.diagnostics.coverageGaps = n.findings.countP fun f => !f.isCovered t x
  files : n.diagnostics.unknownFiles = 0

theorem counted_of_ofOutput {output : String} {version : Option String} {n : Normalized}
    (h : ofOutput t x root output version = .ok n) : Counted t x n := by
  obtain ⟨raws, messages, -, hdiagnostics⟩ := tallied_of_ofOutput h
  exact ⟨by rw [hdiagnostics, tally], by rw [hdiagnostics, tally, Diagnostics.empty]⟩

end Normalized

/-! ## Unknown files -/

namespace Evaluation

variable {isFile : String → Except Fault Bool} {known : List String}

/-- Whether a finding names a file that is not in the corpus. -/
def isUnknown (isFile : String → Except Fault Bool) (known : List String) (f : Finding) : Bool :=
  f.file != "" && !known.contains f.file && (isFile f.file).toOption == some false

/-- Whether it must be looked up if the file of a finding is in the corpus. -/
def IsAsked (known : List String) (f : Finding) : Prop := f.file ≠ "" ∧ f.file ∉ known

theorem countUnknown_returns_iff {d : Diagnostics} {fs : List Finding} :
    (∃ d', countUnknown isFile known d fs = .ok d') ↔ ∀ f ∈ fs, IsAsked known f → ∃ b, isFile f.file = .ok b := by
  induction fs generalizing d with
  | nil => simp [countUnknown]
  | cons f rest ih =>
    rw [countUnknown, List.forall_mem_cons]
    by_cases hf : f.file = "" ∨ f.file ∈ known
    · have hskip : (f.file = "" || known.contains f.file) = true := by simpa using hf
      have hasked : ¬ IsAsked known f := by
        rintro ⟨hne, hnot⟩
        exact hf.elim hne hnot
      rw [if_pos hskip, ih]
      exact ⟨fun h => ⟨fun h' => absurd h' hasked, h⟩, And.right⟩
    · have hskip : ¬ (f.file = "" || known.contains f.file) = true := by simpa using hf
      have hasked : IsAsked known f := not_or.1 hf
      rw [if_neg hskip]
      cases hfile : isFile f.file with
      | error e =>
        refine ⟨fun h => ?_, fun h => ?_⟩
        · obtain ⟨d', hd'⟩ := h
          cases hd'
        · obtain ⟨b, hb⟩ := h.1 hasked
          cases hb
      | ok b =>
        have hrest : ∀ d, (∃ d', countUnknown isFile known d rest = .ok d') ↔
            (IsAsked known f → ∃ b', Except.ok (ε := Fault) b = .ok b') ∧
              ∀ f ∈ rest, IsAsked known f → ∃ b, isFile f.file = .ok b := by
          intro d
          rw [ih]
          exact ⟨fun h => ⟨fun _ => ⟨b, rfl⟩, h⟩, And.right⟩
        cases b with
        | true => exact hrest _
        | false => exact hrest _

/-- Looking files up counts the findings in unknown files, and changes no other count. -/
theorem counts_of_countUnknown {d d' : Diagnostics} {fs : List Finding}
    (h : countUnknown isFile known d fs = .ok d') :
    d'.unknownFiles = d.unknownFiles + fs.countP (isUnknown isFile known) ∧ d'.coverageGaps = d.coverageGaps ∧
      d'.unclassifiedExtras = d.unclassifiedExtras := by
  induction fs generalizing d with
  | nil =>
    cases h
    simp
  | cons f rest ih =>
    rw [countUnknown] at h
    rw [List.countP_cons]
    split at h
    next hskip =>
      have hknown : isUnknown isFile known f = false := by
        simp only [Bool.or_eq_true, decide_eq_true_eq] at hskip
        rcases hskip with hskip | hskip
        · simp [isUnknown, hskip]
        · simp only [isUnknown, hskip, Bool.not_true, Bool.and_false, Bool.false_and]
      rw [if_neg (by simp [hknown]), Nat.add_zero]
      exact ih h
    next hskip =>
      obtain ⟨b, hb, h⟩ := bind_eq_ok.1 h
      simp only [Bool.or_eq_true, decide_eq_true_eq, not_or, Bool.not_eq_true] at hskip
      cases b with
      | true =>
        have hknown : isUnknown isFile known f = false := by simp [isUnknown, hb, Except.toOption]
        rw [if_neg (by simp [hknown]), Nat.add_zero]
        exact ih h
      | false =>
        have hunknown : isUnknown isFile known f = true := by
          simp only [isUnknown, hb, hskip.2]
          simp [hskip.1, Except.toOption]
        obtain ⟨hfiles, hgaps, hextras⟩ := ih h
        rw [if_pos hunknown]
        refine ⟨?_, hgaps, hextras⟩
        rw [hfiles]
        simp only [Diagnostics.recordUnknownFile]
        push_cast
        omega

end Evaluation

/-! ## Results -/

namespace Matching

variable {t : Tool} {x : Crosswalk} {s : MatchSettings} {fs : List Finding} {ds : List Defect}
  {results : List MatchResult} {cs : List Contribution} {e : MatchResult} {f : Finding}

/-- A finding has a category exactly if its rule is covered, and otherwise no confidence in any. -/
structure IsSorted (t : Tool) (x : Crosswalk) (f : Finding) : Prop where
  covered : f.isCovered t x = true → f.isUnclassified = false ∧ f.primary ≠ .unknown
  other : f.isCovered t x = false → f.isUnclassified = true ∧ ∀ c, f.confidenceFor c = 0

theorem isSorted_of_ofOutput {root : Option (Except Fault CorpusRoot)} {output : String} {version : Option String}
    {n : Normalized} (hx : x.IsFrozen) (h : Normalized.ofOutput t x root output version = .ok n) :
    ∀ f ∈ n.findings, IsSorted t x f := by
  intro f hf
  obtain ⟨index, raw, hmade⟩ := Normalized.made_of_ofOutput h f hf
  exact ⟨Normalized.classified_of_covered hx hmade, Normalized.unclassified_of_not_covered hmade⟩

theorem mem_of_finding (hrun : run s fs ds = .ok results) (he : e ∈ results) (hf : e.finding = some f) : f ∈ fs :=
  (findings_of_matchWith hrun).mem_iff.1 (List.mem_filterMap.2 ⟨e, he, hf⟩)

theorem mem_of_defect {g : Defect} (hrun : run s fs ds = .ok results) (he : e ∈ results) (hg : e.defect = some g) :
    g ∈ ds :=
  (defects_of_matchWith hrun).mem_iff.1 (List.mem_filterMap.2 ⟨e, he, hg⟩)

theorem label_ne {k k' : MatchKind} (h : k ≠ k') : k.label ≠ k'.label := fun e => h (label_injective e)

/-- A match is of a finding whose rule is covered. -/
theorem isCovered_of_matched {d : Defect} {w : Float} (hrun : run s fs ds = .ok results)
    (hfs : ∀ f ∈ fs, IsSorted t x f) (he : MatchResult.matched f d w ∈ results) : f.isCovered t x = true := by
  by_contra hnot
  have hconfident := (admits_of_run hrun he).confident
  rw [((hfs f (mem_of_finding hrun he rfl)).other (by simpa using hnot)).2] at hconfident
  exact absurd hconfident (by decide)

/-- A result is unclassified exactly if it has a finding whose rule is not covered. -/
theorem isUnclassified_iff (hrun : run s fs ds = .ok results) (hfs : ∀ f ∈ fs, IsSorted t x f) (he : e ∈ results) :
    e.kind = MatchKind.unclassified.label ↔ ∃ f, e.finding = some f ∧ f.isCovered t x = false := by
  cases shaped_of_matchWith hrun he with
  | matched g d w =>
    have hc := isCovered_of_matched hrun hfs he
    have hk : MatchKind.matched.label ≠ MatchKind.unclassified.label := label_ne (by decide)
    simp [MatchResult.matched, hk, hc]
  | missed d =>
    have hk : MatchKind.falseNegative.label ≠ MatchKind.unclassified.label := label_ne (by decide)
    simp [MatchResult.missed, hk]
  | unmatched g =>
    have hsorted := hfs g (mem_of_finding hrun he rfl)
    cases hc : g.isCovered t x with
    | true =>
      have hk : MatchKind.falsePositive.label ≠ MatchKind.unclassified.label := label_ne (by decide)
      simp [MatchResult.unmatched, (hsorted.covered hc).1, hk, hc]
    | false => simp [MatchResult.unmatched, (hsorted.other hc).1, hc]

/-- As many results are unclassified as findings have a rule that is not covered. -/
theorem countP_unclassified (hrun : run s fs ds = .ok results) (hfs : ∀ f ∈ fs, IsSorted t x f) :
    results.countP (·.kind == MatchKind.unclassified.label) = fs.countP fun f => !f.isCovered t x := by
  rw [← (findings_of_matchWith hrun).countP_eq, List.countP_filterMap]
  refine List.countP_congr fun e he => ?_
  rw [beq_iff_eq, isUnclassified_iff hrun hfs he]
  cases e.finding <;> simp

/-- The contributions of results without a category are those of unclassified results. -/
theorem unclassifiedIn_eq (hs : ∀ r ∈ results, Shaped r) (hc : results.mapM Contribution.ofResult = .ok cs) :
    unclassifiedIn cs = results.countP (·.kind == MatchKind.unclassified.label) := by
  induction mapM_eq_ok.1 hc with
  | nil => rfl
  | @cons r y rs ys hy hys ih =>
    have hrest := ih (fun r hr => hs r (List.mem_cons_of_mem _ hr)) (mapM_eq_ok.2 hys)
    have hhead : unclassifiedIn [y] = if r.kind == MatchKind.unclassified.label then 1 else 0 := by
      cases hs r (List.mem_cons_self ..) with
      | matched f d w =>
        cases hy
        rfl
      | missed d =>
        cases hy
        rfl
      | unmatched f =>
        rw [Metrics.ofResult_unmatched] at hy
        cases hy
        rw [MatchResult.unmatched]
        cases f.isUnclassified <;> rfl
    rw [List.countP_cons, ← hrest, ← hhead, unclassifiedIn, unclassifiedIn, unclassifiedIn, ← List.singleton_append,
      List.filter_append, List.length_append, Nat.add_comm]

/-- Nothing counts for the category of rules that are not covered. -/
theorem tallyOf_unknown (hrun : run s fs ds = .ok results) (hfs : ∀ f ∈ fs, IsSorted t x f)
    (hds : ∀ g ∈ ds, g.category ≠ .unknown) (hc : results.mapM Contribution.ofResult = .ok cs) :
    Metrics.tallyOf cs .unknown = .zero := by
  have each : ∀ r ∈ results, ∀ y, Contribution.ofResult r = .ok y → y.tallyFor .unknown = .zero := by
    intro r hr y hy
    cases shaped_of_matchWith hrun hr with
    | matched f d w =>
      cases hy
      exact if_neg (hds d (mem_of_defect hrun hr rfl))
    | missed d =>
      cases hy
      exact if_neg (hds d (mem_of_defect hrun hr rfl))
    | unmatched f =>
      rw [Metrics.ofResult_unmatched] at hy
      cases hy
      have hsorted := hfs f (mem_of_finding hrun hr rfl)
      cases hcovered : f.isCovered t x with
      | true =>
        rw [(hsorted.covered hcovered).1]
        exact if_neg (hsorted.covered hcovered).2
      | false =>
        rw [(hsorted.other hcovered).1]
        rfl
  clear hrun
  induction mapM_eq_ok.1 hc with
  | nil => rfl
  | @cons r y rs ys hy hys ih =>
    rw [Metrics.tallyOf_cons, each r (List.mem_cons_self ..) y hy, Tally.zero_add]
    exact ih (mapM_eq_ok.2 hys) fun r hr => each r (List.mem_cons_of_mem _ hr)

theorem unknown_notMem_byCategory (h : Metrics.tallyOf cs .unknown = .zero) :
    ∀ b ∈ (Metrics.ofContributions cs).byCategory, b.1.label ≠ "unknown" := by
  intro b hb
  obtain ⟨c, hc, rfl⟩ := List.mem_map.1 hb
  intro hlabel
  obtain rfl : c = .unknown := Category.label_injective hlabel
  have hpresent := (List.mem_filter.1 hc).2
  simp [h] at hpresent

/-- The metrics of a run count every finding once, and those without a category apart. -/
theorem metrics_of_run (hrun : run s fs ds = .ok results) (hfs : ∀ f ∈ fs, IsSorted t x f)
    (hds : ∀ g ∈ ds, g.category ≠ .unknown) :
    ∃ m, Metrics.ofResults results = .ok m ∧ m.unclassified = (fs.countP fun f => !f.isCovered t x) ∧
      (∀ b ∈ m.byCategory, b.1.label ≠ "unknown") ∧ m.findings = fs.length := by
  have hs : ∀ r ∈ results, Shaped r := fun r hr => shaped_of_matchWith hrun hr
  obtain ⟨cs, hcs⟩ := Metrics.exists_contributions hs
  refine ⟨Metrics.ofContributions cs, by rw [Metrics.ofResults, hcs]; rfl, ?_, ?_, ?_⟩
  · rw [← countP_unclassified hrun hfs, ← unclassifiedIn_eq hs hcs]
    rfl
  · exact unknown_notMem_byCategory (tallyOf_unknown hrun hfs hds hcs)
  · have hsum : (Metrics.ofContributions cs).overall.tally = Tally.sum (cs.map Contribution.tally) :=
      Metrics.sum_tallyOf cs
    rw [Metrics.findings, hsum, ← (findings_of_matchWith hrun).length_eq, ← (counts_of_shaped hs hcs).2.2]
    rfl

/-- A finding in no file of the corpus is no match. -/
theorem kind_of_unknown (hrun : run s fs ds = .ok results) (he : e ∈ results) (hf : e.finding = some f)
    (hfile : ∀ g ∈ ds, f.file ≠ g.file) :
    e.kind = MatchKind.falsePositive.label ∨ e.kind = MatchKind.unclassified.label := by
  cases shaped_of_matchWith hrun he with
  | matched g d w =>
    cases hf
    exact absurd (admits_of_run hrun he).file (hfile d (mem_of_defect hrun he rfl))
  | missed d => cases hf
  | unmatched g => exact (kind_unmatched g).symm

end Matching

/-! ## Reports -/

/-- The numbers of a report of some findings agree; `unknown` says which of them name no file of the corpus. -/
structure Report.Agrees (t : Tool) (x : Crosswalk) (unknown : Finding → Bool) (fs : List Finding) (r : Report) :
    Prop where
  /-- Every finding stands in one result. -/
  findings : (r.results.filterMap (·.finding)).Perm fs
  /-- A finding is unclassified exactly if its rule is not covered. -/
  unclassified : ∀ e ∈ r.results, ∀ f, e.finding = some f →
    (e.kind = MatchKind.unclassified.label ↔ f.isCovered t x = false)
  /-- Such a finding is never matched. -/
  unmatched : ∀ e ∈ r.results, ∀ f, e.finding = some f → f.isCovered t x = false → e.kind ≠ MatchKind.matched.label
  /-- The findings in unknown files are counted, and none is matched. -/
  unknownFiles : r.diagnostics.unknownFiles = fs.countP unknown
  spurious : ∀ e ∈ r.results, ∀ f, e.finding = some f → unknown f = true →
    e.kind = MatchKind.falsePositive.label ∨ e.kind = MatchKind.unclassified.label
  /-- The metrics are those of the results. They count every finding, those without a category apart, and
  there are as many of these as gaps. -/
  metrics : ∃ m, Metrics.ofResults r.results = .ok m ∧ r.metrics = m.toValue ∧
    r.diagnostics.unclassifiedExtras = m.unclassified ∧ r.diagnostics.coverageGaps = m.unclassified ∧
    (∀ b ∈ m.byCategory, b.1.label ≠ "unknown") ∧ m.findings = fs.length

namespace Evaluation

variable {d : Disk} {p : Path} {c : Corpus} {t : Tool} {x : Crosswalk} {root : Option (Except Fault CorpusRoot)}
  {output : String} {version : Option String} {n : Normalized} {s : MatchSettings} {results : List MatchResult}
  {isFile : String → Except Fault Bool} {timestamp : String}

theorem counted_of_countFailure (failure : Option Invocation.Fault) (h : Normalized.Counted t x n) :
    Normalized.Counted t x { n with diagnostics := countFailure n.diagnostics failure } := by
  obtain ⟨hgaps, hfiles⟩ := h
  cases failure with
  | none => exact ⟨hgaps, hfiles⟩
  | some f =>
    unfold countFailure
    by_cases hf : f.timedOut = true
    · simp only [hf, if_true]
      exact ⟨hgaps, hfiles⟩
    · simp only [hf]
      exact ⟨hgaps, hfiles⟩

theorem category_of_load (hload : Corpus.load d p = .ok c) : ∀ g ∈ c.defects, g.category ≠ .unknown := by
  intro g hg
  have hcanonical := (Corpus.annotated_of_load hload g (List.mem_mergeSort.1 hg)).category
  simpa [Category.isCanonical] using hcanonical

/-- Findings that are matched make a report exactly if every file can be looked up that must be. -/
theorem score_returns_iff (hrun : Matching.run s n.findings c.defects = .ok results) :
    (∃ r, score isFile c x s timestamp n = .ok r) ↔
      ∀ f ∈ n.findings, IsAsked c.files f → ∃ b, isFile f.file = .ok b := by
  obtain ⟨cs, hcs⟩ := Metrics.exists_contributions fun r hr => Matching.shaped_of_matchWith hrun hr
  have hm : Metrics.ofResults results = .ok (Metrics.ofContributions cs) := by rw [Metrics.ofResults, hcs]; rfl
  rw [← countUnknown_returns_iff (d := { n.diagnostics with
    unclassifiedExtras := (results.filter (·.kind == MatchKind.unclassified.label)).length })]
  constructor
  · rintro ⟨r, hr⟩
    obtain ⟨rs, hrs, hr⟩ := bind_eq_ok.1 hr
    cases hrun.symm.trans hrs
    obtain ⟨diagnostics, hdiagnostics, -⟩ := bind_eq_ok.1 hr
    exact ⟨diagnostics, hdiagnostics⟩
  · rintro ⟨diagnostics, hdiagnostics⟩
    simp only [score, hrun, hdiagnostics, hm, bind, Except.bind]
    exact ⟨_, rfl⟩

theorem agrees_of_score {r : Report} (hrun : Matching.run s n.findings c.defects = .ok results)
    (hfs : ∀ f ∈ n.findings, Matching.IsSorted t x f) (hds : ∀ g ∈ c.defects, g.category ≠ .unknown)
    (hn : Normalized.Counted t x n) (hr : score isFile c x s timestamp n = .ok r) :
    r.Agrees t x (isUnknown isFile c.files) n.findings := by
  obtain ⟨rs, hrs, hr⟩ := bind_eq_ok.1 hr
  cases hrun.symm.trans hrs
  obtain ⟨diagnostics, hdiagnostics, hr⟩ := bind_eq_ok.1 hr
  obtain ⟨m, hm, hr⟩ := bind_eq_ok.1 hr
  cases hr
  obtain ⟨m', hm', hunclassified, hknown, hfindings⟩ := Matching.metrics_of_run hrun hfs hds
  cases hm.symm.trans hm'
  obtain ⟨hunknown, hgaps, hextras⟩ := counts_of_countUnknown hdiagnostics
  have hiff := fun e (he : e ∈ results) => Matching.isUnclassified_iff hrun hfs he
  exact {
    findings := Matching.findings_of_matchWith hrun
    unclassified := fun e he f hf => by rw [hiff e he]; simp [hf]
    unmatched := fun e he f hf hcovered hk => by
      rw [(hiff e he).2 ⟨f, hf, hcovered⟩] at hk
      exact Matching.label_ne (by decide) hk
    unknownFiles := by rw [hunknown, hn.files, zero_add]
    spurious := fun e he f hf hunknown => Matching.kind_of_unknown hrun he hf fun g hg hfile => by
      have hknown : f.file ∈ c.files :=
        Diagnostics.mem_canonical.2 (List.mem_map.2 ⟨g, List.mem_mergeSort.1 hg, hfile.symm⟩)
      simp [isUnknown, hknown] at hunknown
    metrics := by
      refine ⟨m, hm, rfl, ?_, ?_, hknown, hfindings⟩
      · rw [hextras, hunclassified, ← Matching.countP_unclassified hrun hfs, List.countP_eq_length_filter]
      · rw [hgaps, hn.gaps, hunclassified] }

/-- **Numbers.** Where the output of a tool is normalized and matched with a loaded corpus, a report is made
exactly if every file can be looked up that must be, and the numbers of the report agree, also if the tool
failed. -/
theorem numbers_agree (hload : Corpus.load d p = .ok c) (hx : x.IsFrozen)
    (hn : Normalized.ofOutput t x root output version = .ok n)
    (hrun : Matching.run s n.findings c.defects = .ok results) (isFile : String → Except Fault Bool)
    (timestamp : String) (failure : Option Invocation.Fault) :
    ((∃ r, score isFile c x s timestamp { n with diagnostics := countFailure n.diagnostics failure } = .ok r) ↔
      ∀ f ∈ n.findings, IsAsked c.files f → ∃ b, isFile f.file = .ok b) ∧
    ∀ r, score isFile c x s timestamp { n with diagnostics := countFailure n.diagnostics failure } = .ok r →
      r.Agrees t x (isUnknown isFile c.files) n.findings := by
  have hfs := Matching.isSorted_of_ofOutput hx hn
  have hcounted := counted_of_countFailure failure (Normalized.counted_of_ofOutput hn)
  exact ⟨score_returns_iff (n := { n with diagnostics := countFailure n.diagnostics failure }) hrun,
    fun r hr => agrees_of_score (n := { n with diagnostics := countFailure n.diagnostics failure }) hrun hfs
      (category_of_load hload) hcounted hr⟩

/-- The report of two findings, one of which has a rule that is not covered and names no file. -/
theorem numbers_agree_nested :
    Corpus.Nested.report.Agrees .jsonLines Corpus.Nested.crosswalk
      (isUnknown Corpus.Nested.isFile Corpus.Nested.corpus.files) [Corpus.Nested.hit, Corpus.Nested.stray] :=
  (numbers_agree Corpus.Nested.load_corpus Corpus.Nested.isFrozen_crosswalk Corpus.Nested.ofOutput_output
    Corpus.Nested.run_results Corpus.Nested.isFile "2024-01-01T00:00:00Z" none).2 _ Corpus.Nested.score_normalized

end Evaluation

end Assay
