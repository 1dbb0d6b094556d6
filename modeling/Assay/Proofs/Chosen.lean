import Assay.Proofs.Candidates
import Assay.Proofs.Component
import Assay.Proofs.Preference

/-!
# The chosen pairs

A component's table holds what its pairs count, so the solver chooses a heaviest set of them. Components
share no position, hence all their choices together are heaviest among the pairs within components; and
no candidate lies across two. What is heaviest in counts is preferred: no matching of the candidates has
a greater primary weight, and none of equal weight has more bonus (`preferred_chosen`).
-/

namespace Assay.Matching

open Finset Assignment

/-! ## One component -/

/-- The pairs within a component. -/
def within (part : Component) : Pairs := part.defects.toFinset ×ˢ part.findings.toFinset

section
variable {g c : ℕ} {es : List Edge} {part : Component}

/-- An entry of the table of a component. -/
theorem entry_table {ds fs : List ℕ} (w : ℕ → ℕ → ℤ) {r k : ℕ} (hr : r < ds.length) (hk : k < fs.length) :
    entry ((ds.map fun d => fs.map fun f => w d f).map List.toArray).toArray r k =
      w (ds.getD r 0) (fs.getD k 0) := by
  simp [entry, Array.getD, hr, hk]

theorem getD_injOn {ns : List ℕ} (h : ns.Nodup) : Set.InjOn (fun i => ns.getD i 0) {i | i < ns.length} := by
  intro i hi j hj he
  simp only [Set.mem_ofPred_eq] at hi hj
  simp only [List.getD_eq_getElem _ _ hi, List.getD_eq_getElem _ _ hj] at he
  exact h.getElem_inj_iff.1 he

theorem faithful_getD {ds fs : List ℕ} (hd : ds.Nodup) (hf : fs.Nodup) :
    Faithful (fun i => ds.getD i 0) (fun k => fs.getD k 0) (grid ds.length fs.length) := by
  refine ⟨(getD_injOn hd).mono fun i hi => ?_, (getD_injOn hf).mono fun k hk => ?_⟩
  · exact fst_lt_of_subset_grid Subset.rfl hi
  · exact snd_lt_of_subset_grid Subset.rfl hk

theorem relabeled_grid (ds fs : List ℕ) :
    relabeled (fun i => ds.getD i 0) (fun k => fs.getD k 0) (grid ds.length fs.length) =
      ds.toFinset ×ˢ fs.toFinset := by
  have mem : ∀ {ns : List ℕ} {n : ℕ}, n ∈ ns ↔ ∃ i < ns.length, ns.getD i 0 = n := fun {ns n} => by
    rw [List.mem_iff_getElem]
    constructor
    · rintro ⟨i, hi, he⟩; exact ⟨i, hi, by rw [List.getD_eq_getElem _ _ hi, he]⟩
    · rintro ⟨i, hi, he⟩; exact ⟨i, hi, by rw [← he, List.getD_eq_getElem _ _ hi]⟩
  ext ⟨d, f⟩
  simp only [mem_relabeled, mem_grid, mem_product, List.mem_toFinset, mem]
  constructor
  · rintro ⟨⟨i, k⟩, ⟨hi, hk⟩, hd, hf⟩; exact ⟨⟨i, hi, hd⟩, ⟨k, hk, hf⟩⟩
  · rintro ⟨⟨i, hi, hd⟩, ⟨k, hk, hf⟩⟩; exact ⟨(i, k), ⟨hi, hk⟩, hd, hf⟩

/-- The choice of a component is heaviest among the pairs within it. -/
theorem heaviest_solveComponent (g c : ℕ) (es : List Edge) (hd : part.defects.Nodup) (hf : part.findings.Nodup) :
    Heaviest (within part) (fun p => weightAt g c es p.1 p.2) (solveComponent g c es part).toFinset := by
  have hs := heaviest_solve part.defects.length part.findings.length
    (entry ((part.defects.map fun d => part.findings.map fun f => weightAt g c es d f).map List.toArray).toArray)
  have hw : Heaviest (grid part.defects.length part.findings.length)
      (fun p => weightAt g c es (part.defects.getD p.1 0) (part.findings.getD p.2 0)) _ :=
    hs.congr fun p hp => (entry_table _ (mem_grid.1 hp).1 (mem_grid.1 hp).2).symm
  have hr := Heaviest.relabeled (w := fun p => weightAt g c es p.1 p.2) hw (faithful_getD hd hf)
  rw [relabeled_grid] at hr
  refine (congrArg (Heaviest _ _) ?_).mpr hr
  ext p
  simp only [solveComponent, List.mem_toFinset, List.mem_map, mem_relabeled, Prod.ext_iff]

theorem nodup_solveComponent (hd : part.defects.Nodup) (hf : part.findings.Nodup) :
    (solveComponent g c es part).Nodup := by
  refine nodup_solve.map_on fun p hp q hq he => ?_
  have inside := (heaviest_solve part.defects.length part.findings.length
    (entry ((part.defects.map fun d => part.findings.map fun f => weightAt g c es d f).map
      List.toArray).toArray)).inside
  exact (faithful_getD hd hf).injOn (inside (List.mem_toFinset.2 hp)) (inside (List.mem_toFinset.2 hq)) he

/-! ## All components -/

/-- The pairs within components. -/
def withinAny (cs : List Component) : Pairs := cs.foldr (fun part G => within part ∪ G) ∅

theorem mem_withinAny {cs : List Component} {p : ℕ × ℕ} :
    p ∈ withinAny cs ↔ ∃ part ∈ cs, p.1 ∈ part.defects ∧ p.2 ∈ part.findings := by
  induction cs with
  | nil => simp [withinAny]
  | cons part cs ih =>
    rw [show withinAny (part :: cs) = within part ∪ withinAny cs from rfl, mem_union, ih]
    simp [within]

theorem firsts_withinAny {cs : List Component} {i : ℕ} (h : i ∈ firsts (withinAny cs)) :
    i ∈ cs.flatMap (·.defects) := by
  obtain ⟨j, hp⟩ := mem_firsts.1 h
  obtain ⟨part, hc, hd, -⟩ := mem_withinAny.1 hp
  exact List.mem_flatMap.2 ⟨part, hc, hd⟩

theorem seconds_withinAny {cs : List Component} {j : ℕ} (h : j ∈ seconds (withinAny cs)) :
    j ∈ cs.flatMap (·.findings) := by
  obtain ⟨i, hp⟩ := mem_seconds.1 h
  obtain ⟨part, hc, -, hf⟩ := mem_withinAny.1 hp
  exact List.mem_flatMap.2 ⟨part, hc, hf⟩

/-- The choices of components that share nothing are heaviest together, and none is made twice. -/
theorem heaviest_components (g c : ℕ) (es : List Edge) : ∀ {cs : List Component}, (cs.flatMap (·.defects)).Nodup →
    (cs.flatMap (·.findings)).Nodup →
    Heaviest (withinAny cs) (fun p => weightAt g c es p.1 p.2) (cs.flatMap (solveComponent g c es)).toFinset ∧
      (cs.flatMap (solveComponent g c es)).Nodup
  | [], _, _ => ⟨.empty (by simp [withinAny]), List.nodup_nil⟩
  | part :: cs, hd, hf => by
    rw [List.flatMap_cons, List.nodup_append'] at hd hf
    obtain ⟨hd1, hd2, hd⟩ := hd
    obtain ⟨hf1, hf2, hf⟩ := hf
    obtain ⟨ih, ihn⟩ := heaviest_components g c es hd2 hf2
    have hp := heaviest_solveComponent g c es hd1 hf1
    have fst_of : ∀ i ∈ firsts (within part), i ∈ part.defects := fun i hi => by
      obtain ⟨j, hj⟩ := mem_firsts.1 hi
      exact List.mem_toFinset.1 (mem_product.1 hj).1
    have snd_of : ∀ j ∈ seconds (within part), j ∈ part.findings := fun j hj => by
      obtain ⟨i, hi⟩ := mem_seconds.1 hj
      exact List.mem_toFinset.1 (mem_product.1 hi).2
    have df : Disjoint (firsts (within part)) (firsts (withinAny cs)) :=
      disjoint_left.2 fun i hi hi' => hd (fst_of i hi) (firsts_withinAny hi')
    have dg : Disjoint (seconds (within part)) (seconds (withinAny cs)) :=
      disjoint_left.2 fun j hj hj' => hf (snd_of j hj) (seconds_withinAny hj')
    rw [List.flatMap_cons, List.toFinset_append, List.nodup_append']
    refine ⟨hp.union ih df dg, nodup_solveComponent hd1 hf1, ihn, fun p hp1 hp2 => ?_⟩
    have m1 := hp.inside (List.mem_toFinset.2 hp1)
    have m2 := ih.inside (List.mem_toFinset.2 hp2)
    exact disjoint_left.1 df (mem_firsts.2 ⟨p.2, m1⟩) (mem_firsts.2 ⟨p.2, m2⟩)

end

/-! ## The file -/

section
variable {weight : Weighing} {fs : List Finding} {ds : List Defect} {es : List Edge}

/-- No pair is chosen twice. -/
theorem nodup_chosen (g c : ℕ) (es : List Edge) : (chosen g c es).Nodup := by
  have sep := Component.separates_ofEdges (es.map fun e => (e.defect, e.finding))
  exact (heaviest_components g c es sep.defects sep.findings).2

/-- **Choice.** Of all matchings of the candidates of a file, the chosen one is preferred. -/
theorem preferred_chosen (h : edges weight fs ds = .ok es) :
    Preferred (candidates weight fs ds) (primaryOf weight fs ds) (defectBonus ds.length fs.length)
      (findingBonus fs.length) (chosen ds.length fs.length es).toFinset := by
  have sep := Component.separates_ofEdges (es.map fun e => (e.defect, e.finding))
  obtain ⟨H, -⟩ := heaviest_components ds.length fs.length es sep.defects sep.findings
  change Heaviest _ _ (chosen ds.length fs.length es).toFinset at H
  have sub : (chosen ds.length fs.length es).toFinset ⊆ candidates weight fs ds := by
    intro p hp
    by_contra hc
    have := H.positive p hp
    simp only [weightAt_of_notMem h hc, lt_self_iff_false] at this
  -- a candidate is an edge, so it lies within a component
  have cover : candidates weight fs ds ⊆ withinAny (Component.ofEdges (es.map fun e => (e.defect, e.finding))) := by
    intro p hp
    obtain ⟨w, hw⟩ := mem_candidates.1 hp
    obtain ⟨part, hpart, hin⟩ := sep.covers p (List.mem_map.2 ⟨_, (exists_edge h hw).1, rfl⟩)
    exact mem_withinAny.2 ⟨part, hpart, hin⟩
  have count : ∀ p ∈ candidates weight fs ds, weightAt ds.length fs.length es p.1 p.2 = countOf weight fs ds p :=
    fun p hp => weightAt_of_mem h hp
  refine .of_encoded (unit ds.length fs.length) sub H.oneToOne ?_ ?_
  · intro Q hQ oQ
    have hle := H.heaviest Q (hQ.trans cover) oQ
    rw [sum_congr rfl fun p hp => by rw [count p (hQ hp), max_eq_left (Int.natCast_nonneg _)],
      sum_congr rfl fun p hp => count p (sub hp), ← Nat.cast_sum, ← Nat.cast_sum] at hle
    exact Int.ofNat_le.1 hle
  · exact sum_bonus_lt_unit (sub.trans candidates_subset_grid) H.oneToOne

end

end Assay.Matching
