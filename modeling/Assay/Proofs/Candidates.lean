import Assay.Proofs.Faultless
import Assay.Proofs.Assignment.Optimum
import Assay.Matching

/-!
# Candidate pairs

The candidates of a file are the pairs of positions that the weighing admits. The edges that the
matching works on are exactly these, each with its weight, and looking one up by its positions finds
the only edge there is.
-/

namespace Assay.Matching

open Finset Assignment

/-- How a finding and a defect are weighed. -/
abbrev Weighing := Finding → Defect → Except Fault (Option Float)

/-- The weight of the pair at two positions, if it is a candidate. -/
def weightOf (weight : Weighing) (fs : List Finding) (ds : List Defect) (p : ℕ × ℕ) : Option Float :=
  match ds[p.1]?, fs[p.2]? with
  | some d, some f => (weight f d).toOption.join
  | _, _ => none

/-- The weight of a candidate in billionths; zero for any other pair. -/
def primaryOf (weight : Weighing) (fs : List Finding) (ds : List Defect) (p : ℕ × ℕ) : ℕ :=
  ((weightOf weight fs ds p).bind fun w => (primaryWeight w).toOption).getD 0

/-- The candidates among findings and defects, as pairs of positions: the defect first. -/
def candidates (weight : Weighing) (fs : List Finding) (ds : List Defect) : Pairs :=
  (grid ds.length fs.length).filter fun p => (weightOf weight fs ds p).isSome

/-- The bonus of the defect at a position. -/
def defectBonus (g c i : ℕ) : ℕ := (g - i) * (c + 1)

/-- The bonus of the finding at a position. -/
def findingBonus (c j : ℕ) : ℕ := c - j

section
variable {α : Type} {xs : List α} {i : ℕ} {x : α}

theorem numbered_eq_map (xs : List α) :
    numbered xs = (List.finRange xs.length).map fun i : Fin xs.length => (i.val, xs[i]) := by
  apply List.ext_getElem
  · simp [numbered]
  · intro i h1 h2
    simp [numbered]

theorem mem_numbered : (i, x) ∈ numbered xs ↔ xs[i]? = some x := by
  rw [numbered_eq_map, List.mem_map]
  constructor
  · rintro ⟨j, -, hj⟩
    obtain ⟨rfl, rfl⟩ := Prod.mk.inj hj
    exact List.getElem?_eq_getElem j.2
  · intro h
    obtain ⟨hi, rfl⟩ := List.getElem?_eq_some_iff.1 h
    exact ⟨⟨i, hi⟩, List.mem_finRange _, rfl⟩

end

section
variable {weight : Weighing} {fs : List Finding} {ds : List Defect} {es : List Edge} {e : Edge} {p : ℕ × ℕ}
  {w : Float}

theorem weightOf_eq_some : weightOf weight fs ds p = some w ↔
    ∃ d f, ds[p.1]? = some d ∧ fs[p.2]? = some f ∧ weight f d = .ok (some w) := by
  unfold weightOf
  cases ds[p.1]? with
  | none => simp
  | some d =>
    cases fs[p.2]? with
    | none => simp
    | some f =>
      cases hw : weight f d with
      | error e => simp [Except.toOption, hw]
      | ok o => simp [Except.toOption, hw]

theorem mem_candidates : p ∈ candidates weight fs ds ↔ ∃ w, weightOf weight fs ds p = some w := by
  rw [candidates, mem_filter, Option.isSome_iff_exists]
  refine ⟨And.right, fun h => ⟨?_, h⟩⟩
  obtain ⟨w, hw⟩ := h
  obtain ⟨d, f, hd, hf, -⟩ := weightOf_eq_some.1 hw
  exact mem_grid.2 ⟨(List.getElem?_eq_some_iff.1 hd).1, (List.getElem?_eq_some_iff.1 hf).1⟩

theorem candidates_subset_grid : candidates weight fs ds ⊆ grid ds.length fs.length := filter_subset _ _

/-! ## Edges -/

theorem edge?_eq_some {g : ℕ × Defect} {c : ℕ × Finding} : edge? weight g c = .ok (some e) ↔
    e.defect = g.1 ∧ e.finding = c.1 ∧ weight c.2 g.2 = .ok (some e.weight) ∧
      primaryWeight e.weight = .ok e.primary := by
  rw [edge?, bind_eq_ok]
  constructor
  · rintro ⟨o, ho, h⟩
    cases o with
    | none => cases pure_eq_ok.1 h
    | some w =>
      obtain ⟨n, hn, h⟩ := bind_eq_ok.1 h
      obtain rfl := Option.some.inj (pure_eq_ok.1 h)
      exact ⟨rfl, rfl, ho, hn⟩
  · rintro ⟨h1, h2, hw, hn⟩
    obtain ⟨d, f, w, n⟩ := e
    obtain ⟨rfl, rfl⟩ := And.intro h1 h2
    exact ⟨some w, hw, bind_eq_ok.2 ⟨n, hn, rfl⟩⟩

/-- If the edges are found, every pair was weighed, and every candidate has a primary weight. -/
theorem weighed_of_edges (h : edges weight fs ds = .ok es) {d : Defect} {f : Finding} (hd : ds[p.1]? = some d)
    (hf : fs[p.2]? = some f) : ∃ o, weight f d = .ok o ∧ ∀ w, o = some w → ∃ n, primaryWeight w = .ok n := by
  obtain ⟨rows, hrows, -⟩ := bind_eq_ok.1 h
  obtain ⟨row, -, hrow⟩ := returns_of_mapM_eq_ok hrows _ (mem_numbered.2 hd)
  obtain ⟨o, -, ho⟩ := returns_of_mapM_eq_ok hrow _ (mem_numbered.2 hf)
  obtain ⟨o', ho', hn⟩ := bind_eq_ok.1 ho
  refine ⟨o', ho', fun w hw => ?_⟩
  subst hw
  obtain ⟨n, hn, -⟩ := bind_eq_ok.1 hn
  exact ⟨n, hn⟩

/-- The edges are the candidates with their weights. -/
theorem mem_edges (h : edges weight fs ds = .ok es) : e ∈ es ↔
    weightOf weight fs ds (e.defect, e.finding) = some e.weight ∧ primaryWeight e.weight = .ok e.primary := by
  obtain ⟨rows, hrows, hes⟩ := bind_eq_ok.1 h
  have hes : es = rows.flatten.reduceOption := (pure_eq_ok.1 hes).symm
  rw [hes, List.reduceOption_mem_iff, List.mem_flatten, weightOf_eq_some]
  constructor
  · rintro ⟨row, hrow, he⟩
    obtain ⟨⟨i, d⟩, hd, hg⟩ := (mem_of_mapM_eq_ok hrows row).1 hrow
    obtain ⟨⟨j, f⟩, hf, hc⟩ := (mem_of_mapM_eq_ok hg _).1 he
    obtain ⟨rfl, rfl, hw, hn⟩ := edge?_eq_some.1 hc
    exact ⟨⟨d, f, mem_numbered.1 hd, mem_numbered.1 hf, hw⟩, hn⟩
  · rintro ⟨⟨d, f, hd, hf, hw⟩, hn⟩
    obtain ⟨row, hrow, hg⟩ := returns_of_mapM_eq_ok hrows _ (mem_numbered.2 hd)
    exact ⟨row, hrow, (mem_of_mapM_eq_ok hg _).2 ⟨_, mem_numbered.2 hf, edge?_eq_some.2 ⟨rfl, rfl, hw, hn⟩⟩⟩

/-- Every candidate is an edge with its primary weight. -/
theorem exists_edge (h : edges weight fs ds = .ok es) (hw : weightOf weight fs ds p = some w) :
    ⟨p.1, p.2, w, primaryOf weight fs ds p⟩ ∈ es ∧ primaryWeight w = .ok (primaryOf weight fs ds p) := by
  obtain ⟨d, f, hd, hf, hwd⟩ := weightOf_eq_some.1 hw
  obtain ⟨o, ho, hn⟩ := weighed_of_edges h hd hf
  rw [hwd] at ho
  obtain ⟨n, hn⟩ := hn w (Except.ok.inj ho).symm
  have hp : primaryOf weight fs ds p = n := by simp [primaryOf, hw, hn, Except.toOption]
  exact ⟨(mem_edges h).2 ⟨hw, hp ▸ hn⟩, hp ▸ hn⟩

/-- The edge at two positions is found if and only if they are a candidate. -/
theorem find?_edges (h : edges weight fs ds = .ok es) (p : ℕ × ℕ) :
    es.find? (fun e => e.defect == p.1 && e.finding == p.2) =
      (weightOf weight fs ds p).map fun w => ⟨p.1, p.2, w, primaryOf weight fs ds p⟩ := by
  cases hf : es.find? (fun e => e.defect == p.1 && e.finding == p.2) with
  | none =>
    cases hw : weightOf weight fs ds p with
    | none => rfl
    | some w => simpa using List.find?_eq_none.1 hf _ (exists_edge h hw).1
  | some e =>
    obtain ⟨he, -⟩ := List.find?_eq_some_iff_append.1 hf
    obtain ⟨h1, h2⟩ : e.defect = p.1 ∧ e.finding = p.2 := by simpa using he
    obtain ⟨hw, hn⟩ := (mem_edges h).1 (List.mem_of_find?_eq_some hf)
    have hp : (e.defect, e.finding) = p := Prod.ext h1 h2
    rw [hp] at hw
    have hn' := (exists_edge h hw).2
    rw [hn] at hn'
    rw [hw, Option.map_some, ← Except.ok.inj hn', ← h1, ← h2]

/-! ## Weights with bonuses -/

/-- What a pair counts: its primary weight in units, and its bonuses. -/
def countOf (weight : Weighing) (fs : List Finding) (ds : List Defect) (p : ℕ × ℕ) : ℕ :=
  primaryOf weight fs ds p * unit ds.length fs.length +
    (defectBonus ds.length fs.length p.1 + findingBonus fs.length p.2)

theorem weightAt_of_mem (h : edges weight fs ds = .ok es) (hp : p ∈ candidates weight fs ds) :
    weightAt ds.length fs.length es p.1 p.2 = countOf weight fs ds p := by
  obtain ⟨w, hw⟩ := mem_candidates.1 hp
  rw [weightAt, find?_edges h p, hw]
  rfl

theorem weightAt_of_notMem (h : edges weight fs ds = .ok es) (hp : p ∉ candidates weight fs ds) :
    weightAt ds.length fs.length es p.1 p.2 = 0 := by
  have hw : weightOf weight fs ds p = none := by
    by_contra hne
    exact hp (mem_candidates.2 (Option.ne_none_iff_exists'.1 hne))
  rw [weightAt, find?_edges h p, hw]
  rfl

theorem defectBonus_pos {g c i : ℕ} (h : i < g) : 0 < defectBonus g c i :=
  Nat.mul_pos (by omega) (Nat.succ_pos c)

theorem findingBonus_pos {c j : ℕ} (h : j < c) : 0 < findingBonus c j := Nat.sub_pos_of_lt h

/-- No pair has more than the greatest bonus. -/
theorem bonus_le_maxBonus (g c : ℕ) (p : ℕ × ℕ) : defectBonus g c p.1 + findingBonus c p.2 ≤ maxBonus g c :=
  Nat.add_le_add (Nat.mul_le_mul_right _ (Nat.sub_le ..)) (Nat.sub_le ..)

/-- All bonuses of a matching together stay below one unit. -/
theorem sum_bonus_lt_unit {g c : ℕ} {M : Pairs} (hM : M ⊆ grid g c) (oM : OneToOne M) :
    ∑ p ∈ M, (defectBonus g c p.1 + findingBonus c p.2) < unit g c := by
  have hg : M.card ≤ g := by
    rw [← oM.card_firsts, ← card_range g]
    exact card_le_card fun i hi => mem_range.2 (fst_lt_of_subset_grid hM hi)
  have hc : M.card ≤ c := by
    rw [← oM.card_seconds, ← card_range c]
    exact card_le_card fun j hj => mem_range.2 (snd_lt_of_subset_grid hM hj)
  calc ∑ p ∈ M, (defectBonus g c p.1 + findingBonus c p.2) ≤ M.card * maxBonus g c :=
        sum_le_card_nsmul _ _ _ fun p _ => bonus_le_maxBonus g c p
    _ ≤ min g c * maxBonus g c := Nat.mul_le_mul_right _ (le_min hg hc)
    _ < unit g c := Nat.lt_succ_self _

end

end Assay.Matching
