import Assay.Proofs.CandidateRule
import Assay.Proofs.Results
import Assay.Proofs.Tallies

/-!
# Every finding and every defect is accounted for

A run puts each finding and each defect, counted with multiplicity, into exactly one result, and whatever
it matches follows the candidate rule. So the metrics of a run add up: what was found and what was missed
are all defects, in every category and overall, and what was found, spurious or unclassified are all
findings.
-/

namespace Assay.Matching

/-! ## Counts -/

section
variable {rs : List MatchResult} {cs : List Contribution} {r : MatchResult} {x : Contribution}

/-- How often a contribution speaks of an unclassified finding. -/
def unclassifiedIn (cs : List Contribution) : ℕ := (cs.filter (· == .unclassified)).length

theorem defects_of_shaped (hr : Shaped r) (hx : Contribution.ofResult r = .ok x) :
    x.tally.defects = ([r].filterMap (·.defect)).length ∧
      ∀ c, (x.tallyFor c).defects = ([r].filterMap (·.defect)).countP (·.category == c) := by
  cases hr with
  | matched f d s =>
    obtain rfl := Except.ok.inj ((Metrics.ofResult_matched f d s).symm.trans hx)
    refine ⟨rfl, fun c => ?_⟩
    by_cases hc : d.category = c <;> simp [Contribution.tallyFor, MatchResult.matched, Tally.defects, Tally.zero, hc]
  | missed d =>
    obtain rfl := Except.ok.inj ((Metrics.ofResult_missed d).symm.trans hx)
    refine ⟨rfl, fun c => ?_⟩
    by_cases hc : d.category = c <;> simp [Contribution.tallyFor, MatchResult.missed, Tally.defects, Tally.zero, hc]
  | unmatched f =>
    obtain rfl := Except.ok.inj ((Metrics.ofResult_unmatched f).symm.trans hx)
    split
    · exact ⟨rfl, fun c => rfl⟩
    · refine ⟨rfl, fun c => ?_⟩
      by_cases hc : f.primary = c <;>
        simp [Contribution.tallyFor, MatchResult.unmatched, Tally.defects, Tally.zero, hc]

theorem findings_of_shaped (hr : Shaped r) (hx : Contribution.ofResult r = .ok x) :
    x.tally.matched + x.tally.spurious + unclassifiedIn [x] = ([r].filterMap (·.finding)).length := by
  cases hr with
  | matched f d s =>
    obtain rfl := Except.ok.inj ((Metrics.ofResult_matched f d s).symm.trans hx)
    rfl
  | missed d =>
    obtain rfl := Except.ok.inj ((Metrics.ofResult_missed d).symm.trans hx)
    rfl
  | unmatched f =>
    obtain rfl := Except.ok.inj ((Metrics.ofResult_unmatched f).symm.trans hx)
    split <;> rfl

/-- The tallies of results of a run count their defects and findings. -/
theorem counts_of_shaped (hs : ∀ r ∈ rs, Shaped r) (hc : rs.mapM Contribution.ofResult = .ok cs) :
    (Tally.sum (cs.map Contribution.tally)).defects = (rs.filterMap (·.defect)).length ∧
      (∀ c, (Metrics.tallyOf cs c).defects = (rs.filterMap (·.defect)).countP (·.category == c)) ∧
      (Tally.sum (cs.map Contribution.tally)).matched + (Tally.sum (cs.map Contribution.tally)).spurious +
        unclassifiedIn cs = (rs.filterMap (·.finding)).length := by
  induction mapM_eq_ok.1 hc with
  | nil => exact ⟨rfl, fun c => rfl, rfl⟩
  | @cons r x rs cs hx hcs ih =>
    obtain ⟨ih1, ih2, ih3⟩ := ih (fun r hr => hs r (List.mem_cons_of_mem _ hr)) (mapM_eq_ok.2 hcs)
    have hr := hs r (List.mem_cons_self ..)
    obtain ⟨h1, h2⟩ := defects_of_shaped hr hx
    have h3 := findings_of_shaped hr hx
    have split : ∀ {β : Type} (f : MatchResult → Option β), (r :: rs).filterMap f = [r].filterMap f ++ rs.filterMap f :=
      fun f => by rw [← List.filterMap_append]; rfl
    have hu : unclassifiedIn (x :: cs) = unclassifiedIn [x] + unclassifiedIn cs := by
      rw [unclassifiedIn, ← List.singleton_append, List.filter_append, List.length_append]; rfl
    have hd : ∀ t u : Tally, (t.add u).defects = t.defects + u.defects := fun t u => by
      simp only [Tally.defects, Tally.add]; omega
    rw [List.map_cons, Tally.sum_cons]
    refine ⟨?_, fun c => ?_, ?_⟩
    · rw [hd, split, List.length_append, h1, ih1]
    · rw [Metrics.tallyOf_cons, hd, split, List.countP_append, h2, ih2]
    · rw [split, List.length_append, ← h3, ← ih3, hu]
      simp only [Tally.add]
      omega

end

/-! ## Runs -/

variable {s : MatchSettings} {fs : List Finding} {ds : List Defect} {rs : List MatchResult} {r : MatchResult}

/-- A match follows the candidate rule. -/
theorem admits_of_run (h : run s fs ds = .ok rs) {f : Finding} {d : Defect} {x : Float}
    (hr : MatchResult.matched f d x ∈ rs) : Admits s f d := by
  obtain ⟨file, part, hpart, hr⟩ := exists_file h hr
  have hm : MatchResult.matched f d x ∈ ofKind .matched part := List.mem_filter.2 ⟨hr, by simp [MatchResult.matched]⟩
  obtain ⟨p, -, d', f', w, y, -, -, hw, -, he⟩ := (matched_of_matchFile hpart).exists_hit hm
  obtain ⟨hf, hd, -⟩ : f = f' ∧ d = d' ∧ x = y := by simpa [MatchResult.matched] using he
  rw [hf, hd]
  exact admits_of_pairWeight hw

/-- **Accounting.** A run puts every finding and every defect into one result, matches candidates only, and
its metrics add up. -/
theorem results_account (h : run s fs ds = .ok rs) :
    (rs.filterMap (·.finding)).Perm fs ∧ (rs.filterMap (·.defect)).Perm ds ∧
    (∀ r ∈ rs, (∃ f d x, r = MatchResult.matched f d x ∧ Admits s f d) ∨ (∃ d, r = MatchResult.missed d) ∨
      ∃ f, r = MatchResult.unmatched f) ∧
    ∃ m, Metrics.ofResults rs = .ok m ∧
      m.overall.tally.matched + m.overall.tally.missed = ds.length ∧
      m.overall.tally.matched + m.overall.tally.spurious + m.unclassified = m.findings ∧ m.findings = fs.length ∧
      (∀ c, (m.tallyAt c).defects = ds.countP (·.category == c)) ∧
      (m.byCategory.map (·.1)).Nodup ∧ Tally.sum (m.byCategory.map (·.2.tally)) = m.overall.tally := by
  have hf := findings_of_matchWith h
  have hd := defects_of_matchWith h
  have hs : ∀ r ∈ rs, Shaped r := fun r hr => shaped_of_matchWith h hr
  refine ⟨hf, hd, fun r hr => ?_, ?_⟩
  · cases hs r hr with
    | matched f d x => exact Or.inl ⟨f, d, x, rfl, admits_of_run h hr⟩
    | missed d => exact Or.inr (Or.inl ⟨d, rfl⟩)
    | unmatched f => exact Or.inr (Or.inr ⟨f, rfl⟩)
  obtain ⟨cs, hcs⟩ := Metrics.exists_contributions hs
  obtain ⟨h1, h2, h3⟩ := counts_of_shaped hs hcs
  have hsum : (Metrics.ofContributions cs).overall.tally = Tally.sum (cs.map Contribution.tally) :=
    Metrics.sum_tallyOf cs
  refine ⟨Metrics.ofContributions cs, by rw [Metrics.ofResults, hcs]; rfl, ?_, rfl, ?_, fun c => ?_, ?_, ?_⟩
  · rw [hsum, ← hd.length_eq, ← h1]; rfl
  · rw [Metrics.findings, hsum, ← hf.length_eq, ← h3]; rfl
  · rw [Metrics.tallyAt_ofContributions, h2, hd.countP_eq]
  · exact (Metrics.nodup_byCategory cs)
  · exact Metrics.sum_byCategory cs

theorem results_account_twins : ∃ m,
    Metrics.ofResults [MatchResult.matched loneFinding loneDefect 1, MatchResult.unmatched twinFinding] = .ok m ∧
      m.overall.tally.matched + m.overall.tally.missed = 1 ∧ m.findings = 2 ∧
      Admits plainSettings loneFinding loneDefect := by
  obtain ⟨-, -, hrule, m, hm, hd, -, hf, -⟩ := results_account run_twins
  refine ⟨m, hm, hd, hf, ?_⟩
  rcases hrule _ (List.mem_cons_self ..) with ⟨f, d, x, he, ha⟩ | ⟨d, he⟩ | ⟨f, he⟩
  · obtain ⟨rfl, rfl, -⟩ : loneFinding = f ∧ loneDefect = d ∧ 1 = x := by simpa [MatchResult.matched] using he
    exact ha
  · simp [MatchResult.matched, MatchResult.missed] at he
  · simp [MatchResult.matched, MatchResult.unmatched] at he

end Assay.Matching
