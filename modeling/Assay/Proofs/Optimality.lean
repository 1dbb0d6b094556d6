import Assay.Proofs.Ranking

/-!
# The matching is best

In every file the matches are a one-to-one set of candidates of the greatest primary weight
(`matches_heaviest`), and among the sets of that weight the one that uses earlier defects and earlier
findings (`matches_preferred`). Neither bonus nor components ever cost a unit of weight, and the sum of
bonuses decides like a lexicographic order of the positions in use.
-/

namespace Assay

open Finset

/-- The first position at which two sets differ is in the first of them. -/
def Leads (S T : Finset ℕ) : Prop := ∃ i ∈ S, i ∉ T ∧ ∀ j < i, (j ∈ S ↔ j ∈ T)

/-- A set leads if everything that only the other one has comes after something that only it has. -/
theorem leads_of_ne {S T : Finset ℕ} (hne : S ≠ T) (h : ∀ j ∈ T, j ∉ S → ∃ i ∈ S, i ∉ T ∧ i ≤ j) : Leads S T := by
  have hd : ∃ i, ¬(i ∈ S ↔ i ∈ T) := not_forall.1 fun e => hne (Finset.ext e)
  -- the least position at which they differ
  have hdiff : ¬(Nat.find hd ∈ S ↔ Nat.find hd ∈ T) := Nat.find_spec hd
  have hmin : ∀ j < Nat.find hd, (j ∈ S ↔ j ∈ T) := fun j hj => not_not.1 (Nat.find_min hd hj)
  by_cases hS : Nat.find hd ∈ S
  · exact ⟨Nat.find hd, hS, fun hT => hdiff ⟨fun _ => hT, fun _ => hS⟩, hmin⟩
  · have hT : Nat.find hd ∈ T := by_contra fun hT => hdiff ⟨fun e => absurd e hS, fun e => absurd e hT⟩
    obtain ⟨i, hi, hiT, hle⟩ := h _ hT hS
    have hlt : i < Nat.find hd := lt_of_le_of_ne hle fun e => hS (e ▸ hi)
    exact absurd ((hmin i hlt).1 hi) hiT

namespace Matching

section
variable {weight : Weighing} {fs : List Finding} {ds : List Defect} {rs : List MatchResult} {g c i j : ℕ}

/-! ## Bonuses rank positions -/

theorem le_of_defectBonus_le (hi : i < g) (h : defectBonus g c j ≤ defectBonus g c i) : i ≤ j := by
  have := Nat.le_of_mul_le_mul_right h (Nat.succ_pos c)
  omega

theorem le_of_findingBonus_le (hi : i < c) (h : findingBonus c j ≤ findingBonus c i) : i ≤ j := by
  unfold findingBonus at h
  omega

theorem lt_of_mem_firsts (h : i ∈ firsts (candidates weight fs ds)) : i < ds.length :=
  Assignment.fst_lt_of_subset_grid candidates_subset_grid h

theorem lt_of_mem_seconds (h : j ∈ seconds (candidates weight fs ds)) : j < fs.length :=
  Assignment.snd_lt_of_subset_grid candidates_subset_grid h

/-! ## Weight -/

/-- **Optimality.** The matches in a file are those of a one-to-one set of candidates, and no other one
has a greater primary weight. -/
theorem matches_heaviest (h : matchWith weight fs ds = .ok rs) (file : String) :
    (∀ p w, weightOf weight (findingsIn file fs) (defectsIn file ds) p = some w →
      primaryWeight w = .ok (primaryIn weight fs ds file p)) ∧
    Matches weight fs ds rs file (pairsIn weight fs ds file) ∧
    ∀ Q ⊆ candidatesIn weight fs ds file, OneToOne Q →
      ∑ p ∈ Q, primaryIn weight fs ds file p ≤ ∑ p ∈ pairsIn weight fs ds file, primaryIn weight fs ds file p := by
  refine ⟨fun p w hw => ?_, matches_pairsIn h file, (preferred_of_matchWith h file).heaviest⟩
  obtain ⟨part, hpart, -⟩ := resultsIn_of_matchWith h file
  obtain ⟨⟨es, hes⟩, -⟩ := matchFile_eq_ok hpart
  exact (exists_edge hes hw).2

theorem matches_heaviest_lone : Matches (pairWeight plainSettings) [loneFinding] [loneDefect]
    [MatchResult.matched loneFinding loneDefect 1] "a.c"
    (pairsIn (pairWeight plainSettings) [loneFinding] [loneDefect] "a.c") :=
  (matches_heaviest run_lone "a.c").2.1

/-! ## Preference -/

/-- **Preference.** With the defects of a file ranked by name, sample and first line and its findings by
index, the matches lead any other one-to-one set of candidates of their weight: the lowest-ranked defect
that only one of the two uses is matched, and so is the lowest-ranked finding. -/
theorem matches_preferred (h : matchWith weight fs ds = .ok rs) (file : String) :
    (defectsIn file ds).Pairwise (fun a b => defectKey a ≤ defectKey b) ∧
    (findingsIn file fs).Pairwise (fun a b => a.index ≤ b.index) ∧
    Matches weight fs ds rs file (pairsIn weight fs ds file) ∧
    ∀ K ⊆ candidatesIn weight fs ds file, OneToOne K →
      ∑ p ∈ K, primaryIn weight fs ds file p = ∑ p ∈ pairsIn weight fs ds file, primaryIn weight fs ds file p →
        (firsts (pairsIn weight fs ds file) ≠ firsts K → Leads (firsts (pairsIn weight fs ds file)) (firsts K)) ∧
        (seconds (pairsIn weight fs ds file) ≠ seconds K →
          Leads (seconds (pairsIn weight fs ds file)) (seconds K)) := by
  have best := preferred_of_matchWith h file
  refine ⟨defectsIn_pairwise file ds, findingsIn_pairwise file fs, matches_pairsIn h file,
    fun K hK oK hw => ⟨fun hne => ?_, fun hne => ?_⟩⟩
  · refine leads_of_ne hne fun j hj hjM => ?_
    obtain ⟨i, hi, hiK, hle⟩ :=
      best.exists_outranks hK oK hw (fun i hi => defectBonus_pos (lt_of_mem_firsts hi)) hj hjM
    exact ⟨i, hi, hiK, le_of_defectBonus_le (lt_of_mem_firsts (firsts_mono best.subset hi)) hle⟩
  · refine leads_of_ne hne fun j hj hjM => ?_
    obtain ⟨i, hi, hiK, hle⟩ :=
      best.exists_outranks_second hK oK hw (fun i hi => findingBonus_pos (lt_of_mem_seconds hi)) hj hjM
    exact ⟨i, hi, hiK, le_of_findingBonus_le (lt_of_mem_seconds (seconds_mono best.subset hi)) hle⟩

theorem matches_preferred_twins :
    Leads (seconds (pairsIn (pairWeight plainSettings) [loneFinding, twinFinding] [loneDefect] "a.c"))
      (seconds {(0, 1)}) := by
  have hd : defectsIn "a.c" [loneDefect] = [loneDefect] := by decide +kernel
  refine ((matches_preferred run_twins "a.c").2.2.2 {(0, 1)} ?_ ⟨by decide, by decide⟩ ?_).2 ?_
  · rw [candidatesIn, findingsIn_twins, hd]; decide +kernel
  · rw [pairsIn_twins, sum_singleton, sum_singleton, primaryIn, findingsIn_twins, hd]; decide +kernel
  · rw [pairsIn_twins]; decide

end

end Matching

end Assay
