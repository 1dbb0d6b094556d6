import Assay.Proofs.Optimality
import Assay.Proofs.Tallies

/-!
# More input matches no less

One more finding changes the positions behind it and every bonus of its file, and it may re-route a whole
path of pairs. Still each defect that was found is found: with the positions renumbered, the matching
before is preferred among candidates that the matching after has too, and preferred matchings only gain
first positions when second ones are added. One more defect likewise takes no finding out of its match.
-/

namespace Assay.Matching

open Finset

/-! ## Room for one more -/

/-- The position of an item after one was inserted at a position. -/
def skip (x i : ℕ) : ℕ := if i < x then i else i + 1

/-- The position of an item before one was inserted at a position. -/
def unskip (x i : ℕ) : ℕ := if i < x then i else i - 1

theorem unskip_skip (x i : ℕ) : unskip x (skip x i) = i := by
  unfold skip unskip
  split
  · rfl
  · rw [if_neg (by omega)]; omega

theorem skip_unskip {x i : ℕ} (h : i ≠ x) : skip x (unskip x i) = i := by
  unfold skip unskip
  split
  · rfl
  · rw [if_neg (by omega)]; omega

theorem skip_ne (x i : ℕ) : skip x i ≠ x := by
  unfold skip
  split <;> omega

theorem skip_injective (x : ℕ) : Function.Injective (skip x) := fun i j h => by
  rw [← unskip_skip x i, h, unskip_skip]

theorem getElem?_skip {α : Type} (L₁ L₂ : List α) (a : α) (i : ℕ) :
    (L₁ ++ a :: L₂)[skip L₁.length i]? = (L₁ ++ L₂)[i]? := by
  unfold skip
  split
  · rw [List.getElem?_append_left ‹_›, List.getElem?_append_left ‹_›]
  · rw [List.getElem?_append_right (by omega), List.getElem?_append_right (by omega),
      Nat.sub_add_comm (by omega), List.getElem?_cons_succ]

/-- The second list is the first one, perhaps with one more item. -/
def OneMore {α : Type} (l l' : List α) : Prop := l' = l ∨ ∃ L₁ a L₂, l' = L₁ ++ a :: L₂ ∧ l = L₁ ++ L₂

theorem oneMore_filter_mergeSort {α : Type} {le : α → α → Bool} (h : Ranking le) (p : α → Bool) (a : α)
    (l₁ l₂ : List α) :
    OneMore (((l₁ ++ l₂).filter p).mergeSort le) (((l₁ ++ a :: l₂).filter p).mergeSort le) := by
  rw [List.filter_append, List.filter_append]
  by_cases ha : p a = true
  · rw [List.filter_cons_of_pos ha]
    obtain ⟨L₁, L₂, h1, h2⟩ := h.mergeSort_insert a (l₁.filter p) (l₂.filter p)
    exact Or.inr ⟨L₁, a, L₂, h1, h2⟩
  · rw [List.filter_cons_of_neg ha]; exact Or.inl rfl

theorem oneMore_findingsIn (file : String) (f : Finding) (fs₁ fs₂ : List Finding) :
    OneMore (findingsIn file (fs₁ ++ fs₂)) (findingsIn file (fs₁ ++ f :: fs₂)) :=
  oneMore_filter_mergeSort ranking_findings _ f fs₁ fs₂

theorem oneMore_defectsIn (file : String) (d : Defect) (ds₁ ds₂ : List Defect) :
    OneMore (defectsIn file (ds₁ ++ ds₂)) (defectsIn file (ds₁ ++ d :: ds₂)) :=
  oneMore_filter_mergeSort ranking_defects _ d ds₁ ds₂

/-! ## Renumbered candidates -/

section
variable {weight : Weighing} {fs fs' : List Finding} {ds ds' : List Defect} {rs rs' : List MatchResult}
  {f h : ℕ → ℕ} {a b : ℕ → ℕ}

theorem primaryOf_congr {p q : ℕ × ℕ} (hw : weightOf weight fs' ds' q = weightOf weight fs ds p) :
    primaryOf weight fs' ds' q = primaryOf weight fs ds p := by rw [primaryOf, primaryOf, hw]

theorem relabeled_candidates_subset (hw : ∀ i j, weightOf weight fs' ds' (f i, h j) = weightOf weight fs ds (i, j)) :
    relabeled f h (candidates weight fs ds) ⊆ candidates weight fs' ds' := by
  intro p hp
  obtain ⟨q, hq, he⟩ := mem_relabeled.1 hp
  obtain ⟨w, hqw⟩ := mem_candidates.1 hq
  exact mem_candidates.2 ⟨w, by rw [← hqw, ← hw, he.1, he.2]⟩

theorem mem_relabeled_candidates {p q : ℕ × ℕ} (hq : (f q.1, h q.2) = p)
    (hw : weightOf weight fs' ds' (f q.1, h q.2) = weightOf weight fs ds q) (hp : p ∈ candidates weight fs' ds') :
    p ∈ relabeled f h (candidates weight fs ds) := by
  obtain ⟨w, hpw⟩ := mem_candidates.1 hp
  refine mem_relabeled.2 ⟨q, mem_candidates.2 ⟨w, by rw [← hw, hq, hpw]⟩, congrArg Prod.fst hq, congrArg Prod.snd hq⟩

/-- What is chosen among candidates is preferred among the same ones with other positions. -/
theorem preferred_relabeled (hr : matchFile weight fs ds = .ok rs)
    (hw : ∀ i j, weightOf weight fs' ds' (f i, h j) = weightOf weight fs ds (i, j)) (hf : f.Injective)
    (hh : h.Injective) (ha : ∀ i, a (f i) = defectBonus ds.length fs.length i)
    (hb : ∀ j, b (h j) = findingBonus fs.length j) :
    Preferred (relabeled f h (candidates weight fs ds)) (primaryOf weight fs' ds') a b
      (relabeled f h (pairsOf weight fs ds)) := by
  refine Preferred.relabeled ?_ ⟨hf.injOn, hh.injOn⟩
  have hp : (fun p : ℕ × ℕ => primaryOf weight fs' ds' (f p.1, h p.2)) = primaryOf weight fs ds :=
    funext fun p => primaryOf_congr (hw p.1 p.2)
  rw [hp, funext ha, funext hb]
  exact preferred_of_matchFile hr

/-! ## One file -/

/-- One more finding in a file takes no defect out of its match. -/
theorem firsts_subset_of_oneMore (hr : matchFile weight fs ds = .ok rs) (hr' : matchFile weight fs' ds = .ok rs')
    (hm : OneMore fs fs') : firsts (pairsOf weight fs ds) ⊆ firsts (pairsOf weight fs' ds) := by
  obtain rfl | ⟨L₁, f, L₂, rfl, rfl⟩ := hm
  · exact Subset.rfl
  have hw : ∀ i j, weightOf weight (L₁ ++ f :: L₂) ds (id i, skip L₁.length j) = weightOf weight (L₁ ++ L₂) ds (i, j) :=
    fun i j => by simp only [weightOf, id_eq, getElem?_skip]
  have before := preferred_relabeled hr hw Function.injective_id (skip_injective _)
    (a := defectBonus ds.length (L₁ ++ L₂).length) (fun i => rfl)
    (b := fun j => findingBonus (L₁ ++ L₂).length (unskip L₁.length j)) (fun j => by rw [unskip_skip])
  have hsub := before.firsts_subset (preferred_of_matchFile hr') (relabeled_candidates_subset hw) ?_
    (fun i hi => defectBonus_pos (lt_of_mem_firsts hi)) ?_
  · rwa [firsts_relabeled, image_id] at hsub
  · intro p hp hs
    obtain ⟨i, hi⟩ := mem_seconds.1 hs
    obtain ⟨q, -, -, hq⟩ := mem_relabeled.1 hi
    have hne : p.2 ≠ L₁.length := fun e => skip_ne L₁.length q.2 (hq.trans e)
    exact mem_relabeled_candidates (q := (p.1, unskip L₁.length p.2)) (Prod.ext rfl (skip_unskip hne)) (hw _ _) hp
  · intro i hi j hj hle hle'
    have h1 := le_of_defectBonus_le (lt_of_mem_firsts hi) hle
    have h2 := le_of_defectBonus_le (lt_of_mem_firsts hj) hle'
    omega

/-- One more defect in a file takes no finding out of its match. -/
theorem seconds_subset_of_oneMore (hr : matchFile weight fs ds = .ok rs) (hr' : matchFile weight fs ds' = .ok rs')
    (hm : OneMore ds ds') : seconds (pairsOf weight fs ds) ⊆ seconds (pairsOf weight fs ds') := by
  obtain rfl | ⟨L₁, d, L₂, rfl, rfl⟩ := hm
  · exact Subset.rfl
  have hw : ∀ i j, weightOf weight fs (L₁ ++ d :: L₂) (skip L₁.length i, id j) = weightOf weight fs (L₁ ++ L₂) (i, j) :=
    fun i j => by simp only [weightOf, id_eq, getElem?_skip]
  have before := preferred_relabeled hr hw (skip_injective _) Function.injective_id
    (a := fun i => defectBonus (L₁ ++ L₂).length fs.length (unskip L₁.length i)) (fun i => by rw [unskip_skip])
    (b := findingBonus fs.length) (fun j => rfl)
  have hsub := before.seconds_subset (preferred_of_matchFile hr') (relabeled_candidates_subset hw) ?_
    (fun j hj => findingBonus_pos (lt_of_mem_seconds hj)) ?_
  · rwa [seconds_relabeled, image_id] at hsub
  · intro p hp hs
    obtain ⟨j, hj⟩ := mem_firsts.1 hs
    obtain ⟨q, -, hq, -⟩ := mem_relabeled.1 hj
    have hne : p.1 ≠ L₁.length := fun e => skip_ne L₁.length q.1 (hq.trans e)
    exact mem_relabeled_candidates (q := (unskip L₁.length p.1, p.2)) (Prod.ext (skip_unskip hne) rfl) (hw _ _) hp
  · intro i hi j hj hle hle'
    have h1 := le_of_findingBonus_le (lt_of_mem_seconds hi) hle
    have h2 := le_of_findingBonus_le (lt_of_mem_seconds hj) hle'
    omega

/-! ## Runs -/

/-- One more finding takes no defect out of its match. -/
theorem firsts_pairsIn_subset (f : Finding) {fs₁ fs₂ : List Finding} (hr : matchWith weight (fs₁ ++ fs₂) ds = .ok rs)
    (hr' : matchWith weight (fs₁ ++ f :: fs₂) ds = .ok rs') (file : String) :
    firsts (pairsIn weight (fs₁ ++ fs₂) ds file) ⊆ firsts (pairsIn weight (fs₁ ++ f :: fs₂) ds file) :=
  have ⟨_, hpart, _⟩ := resultsIn_of_matchWith hr file
  have ⟨_, hpart', _⟩ := resultsIn_of_matchWith hr' file
  firsts_subset_of_oneMore hpart hpart' (oneMore_findingsIn file f fs₁ fs₂)

/-- One more defect takes no finding out of its match. -/
theorem seconds_pairsIn_subset (d : Defect) {ds₁ ds₂ : List Defect} (hr : matchWith weight fs (ds₁ ++ ds₂) = .ok rs)
    (hr' : matchWith weight fs (ds₁ ++ d :: ds₂) = .ok rs') (file : String) :
    seconds (pairsIn weight fs (ds₁ ++ ds₂) file) ⊆ seconds (pairsIn weight fs (ds₁ ++ d :: ds₂) file) :=
  have ⟨_, hpart, _⟩ := resultsIn_of_matchWith hr file
  have ⟨_, hpart', _⟩ := resultsIn_of_matchWith hr' file
  seconds_subset_of_oneMore hpart hpart' (oneMore_defectsIn file d ds₁ ds₂)

/-- If every file finds the same defects or more, so does the run. -/
theorem matchedDefects_subperm (hr : matchWith weight fs ds = .ok rs) (hr' : matchWith weight fs' ds = .ok rs')
    (hs : ∀ file, firsts (pairsIn weight fs ds file) ⊆ firsts (pairsIn weight fs' ds file)) :
    (matchedDefects rs).Subperm (matchedDefects rs') ∧ (missedDefects rs').Subperm (missedDefects rs) := by
  constructor
  · refine subperm_of_filter Defect.file fun file => ?_
    exact (matchedDefects_filter hr file).subperm.trans <|
      (itemsAt_sublist (hs file)).subperm.trans (matchedDefects_filter hr' file).symm.subperm
  · refine subperm_of_filter Defect.file fun file => ?_
    exact (missedDefects_filter hr' file).subperm.trans <|
      (itemsOff_sublist (hs file)).subperm.trans (missedDefects_filter hr file).symm.subperm

theorem matchedFindings_subperm (hr : matchWith weight fs ds = .ok rs) (hr' : matchWith weight fs ds' = .ok rs')
    (hs : ∀ file, seconds (pairsIn weight fs ds file) ⊆ seconds (pairsIn weight fs ds' file)) :
    (matchedFindings rs).Subperm (matchedFindings rs') := by
  refine subperm_of_filter Finding.file fun file => ?_
  exact (matchedFindings_filter hr file).subperm.trans <|
    (itemsAt_sublist (hs file)).subperm.trans (matchedFindings_filter hr' file).symm.subperm

/-- The metrics of a run list for each category the defects that were found and missed. -/
theorem exists_metrics (hr : matchWith weight fs ds = .ok rs) : ∃ m, Metrics.ofResults rs = .ok m ∧
    ∀ c, (m.tallyAt c).matched = (matchedDefects rs).countP (·.category == c) ∧
      (m.tallyAt c).missed = (missedDefects rs).countP (·.category == c) := by
  obtain ⟨cs, hcs⟩ := Metrics.exists_contributions fun r hr' => shaped_of_matchWith hr hr'
  refine ⟨Metrics.ofContributions cs, by rw [Metrics.ofResults, hcs]; rfl, fun c => ?_⟩
  rw [Metrics.tallyAt_ofContributions]
  exact Metrics.tallyOf_results hcs c

/-- **Monotonicity.** One more finding, wherever it is added, takes no defect out of its match, so no
category finds fewer defects or misses more; and one more defect takes no finding out of its match. -/
theorem matches_monotone (weight : Weighing) :
    (∀ (fs₁ : List Finding) (f : Finding) (fs₂ : List Finding) (ds : List Defect) (rs rs' : List MatchResult),
      matchWith weight (fs₁ ++ fs₂) ds = .ok rs → matchWith weight (fs₁ ++ f :: fs₂) ds = .ok rs' →
      (∀ file, Matches weight (fs₁ ++ fs₂) ds rs file (pairsIn weight (fs₁ ++ fs₂) ds file) ∧
        Matches weight (fs₁ ++ f :: fs₂) ds rs' file (pairsIn weight (fs₁ ++ f :: fs₂) ds file) ∧
        firsts (pairsIn weight (fs₁ ++ fs₂) ds file) ⊆ firsts (pairsIn weight (fs₁ ++ f :: fs₂) ds file)) ∧
      (matchedDefects rs).Subperm (matchedDefects rs') ∧ (missedDefects rs').Subperm (missedDefects rs) ∧
      ∃ m m', Metrics.ofResults rs = .ok m ∧ Metrics.ofResults rs' = .ok m' ∧
        ∀ c, (m.tallyAt c).matched ≤ (m'.tallyAt c).matched ∧ (m'.tallyAt c).missed ≤ (m.tallyAt c).missed) ∧
    (∀ (fs : List Finding) (ds₁ : List Defect) (d : Defect) (ds₂ : List Defect) (rs rs' : List MatchResult),
      matchWith weight fs (ds₁ ++ ds₂) = .ok rs → matchWith weight fs (ds₁ ++ d :: ds₂) = .ok rs' →
      (∀ file, Matches weight fs (ds₁ ++ ds₂) rs file (pairsIn weight fs (ds₁ ++ ds₂) file) ∧
        Matches weight fs (ds₁ ++ d :: ds₂) rs' file (pairsIn weight fs (ds₁ ++ d :: ds₂) file) ∧
        seconds (pairsIn weight fs (ds₁ ++ ds₂) file) ⊆ seconds (pairsIn weight fs (ds₁ ++ d :: ds₂) file)) ∧
      (matchedFindings rs).Subperm (matchedFindings rs')) := by
  refine ⟨fun fs₁ f fs₂ ds rs rs' hr hr' => ?_, fun fs ds₁ d ds₂ rs rs' hr hr' => ?_⟩
  · have hs := firsts_pairsIn_subset f hr hr'
    obtain ⟨matched, missed⟩ := matchedDefects_subperm hr hr' hs
    obtain ⟨m, hm, count⟩ := exists_metrics hr
    obtain ⟨m', hm', count'⟩ := exists_metrics hr'
    refine ⟨fun file => ⟨matches_pairsIn hr file, matches_pairsIn hr' file, hs file⟩, matched, missed, m, m', hm, hm',
      fun c => ?_⟩
    rw [(count c).1, (count c).2, (count' c).1, (count' c).2]
    exact ⟨matched.countP_le _, missed.countP_le _⟩
  · have hs := seconds_pairsIn_subset d hr hr'
    exact ⟨fun file => ⟨matches_pairsIn hr file, matches_pairsIn hr' file, hs file⟩, matchedFindings_subperm hr hr' hs⟩

theorem matches_monotone_lone :
    (matchedDefects [MatchResult.matched loneFinding loneDefect 1]).Subperm
        (matchedDefects [MatchResult.matched loneFinding loneDefect 1, MatchResult.unmatched twinFinding]) ∧
      (matchedFindings [MatchResult.matched loneFinding loneDefect 1]).Subperm
        (matchedFindings [MatchResult.matched loneFinding loneDefect 1, MatchResult.missed farDefect]) :=
  ⟨((matches_monotone _).1 [loneFinding] twinFinding [] [loneDefect] _ _ run_lone run_twins).2.1,
    ((matches_monotone _).2 [loneFinding] [loneDefect] farDefect [] _ _ run_lone run_far).2⟩

end

end Assay.Matching
