import Assay.Proofs.Chosen

/-!
# The results of a file

Every chosen pair becomes a match, every other defect is missed, and every other finding matches
nothing. `Realizes` ties matches, in whatever order, to the set of pairs that they stand for;
`matchFile_eq_ok` says that the results of a file are the matches of `pairsOf` and what these pairs
leave unused.
-/

namespace Assay.Matching

open Finset

/-! ## Items at positions -/

/-- The items of a list at some positions. -/
def itemsAt {α : Type} (xs : List α) (S : Finset ℕ) : List α := ((numbered xs).filter (·.1 ∈ S)).map (·.2)

/-- The items of a list at all other positions. -/
def itemsOff {α : Type} (xs : List α) (S : Finset ℕ) : List α := ((numbered xs).filter (·.1 ∉ S)).map (·.2)

section
variable {α : Type} {xs ys : List α} {S T : Finset ℕ} {L : List ℕ}

theorem map_snd_numbered (xs : List α) : (numbered xs).map (·.2) = xs :=
  List.map_snd_zip (by rw [List.length_range])

theorem numbered_eq_filterMap (xs : List α) :
    numbered xs = (List.range xs.length).filterMap fun i => xs[i]?.map (Prod.mk i) := by
  rw [numbered_eq_map, ← List.map_coe_finRange_eq_range, List.filterMap_map, ← List.filterMap_eq_map]
  exact List.filterMap_congr fun i _ => by simp

theorem itemsAt_eq_filterMap (xs : List α) (S : Finset ℕ) :
    itemsAt xs S = ((List.range xs.length).filter (· ∈ S)).filterMap (xs[·]?) := by
  rw [itemsAt, numbered_eq_filterMap, List.filter_filterMap, List.map_filterMap, List.filterMap_filter]
  refine List.filterMap_congr fun i _ => ?_
  cases xs[i]? with
  | none => simp
  | some x => by_cases hi : i ∈ S <;> simp [hi]

/-- The items at the positions of a list without repetitions, in the order of that list. -/
theorem filterMap_getElem?_perm (hL : L.Nodup) (hlt : ∀ i ∈ L, i < xs.length) :
    (L.filterMap (xs[·]?)).Perm (itemsAt xs L.toFinset) := by
  rw [itemsAt_eq_filterMap]
  refine List.Perm.filterMap _ ((List.perm_ext_iff_of_nodup hL (List.nodup_range.filter _)).2 fun i => ?_)
  simpa using hlt i

theorem itemsAt_append_itemsOff_perm (xs : List α) (S : Finset ℕ) : (itemsAt xs S ++ itemsOff xs S).Perm xs := by
  have hp := (List.filter_append_perm (fun x : ℕ × α => decide (x.1 ∈ S)) (numbered xs)).map (·.2)
  rw [map_snd_numbered, List.map_append] at hp
  simpa only [itemsAt, itemsOff, decide_not] using hp

theorem itemsAt_sublist (h : S ⊆ T) : (itemsAt xs S).Sublist (itemsAt xs T) :=
  (List.monotone_filter_right _ fun _ hx => decide_eq_true (h (of_decide_eq_true hx))).map _

theorem itemsOff_sublist (h : S ⊆ T) : (itemsOff xs T).Sublist (itemsOff xs S) := by
  refine (List.monotone_filter_right _ fun x hx => ?_).map _
  simp only [decide_eq_true_eq] at hx ⊢
  exact fun hs => hx (h hs)

theorem mem_of_mem_itemsOff {x : α} (h : x ∈ itemsOff xs S) : x ∈ xs := by
  obtain ⟨⟨i, y⟩, hy, rfl⟩ := List.mem_map.1 h
  exact List.mem_of_getElem? (mem_numbered.1 (List.mem_filter.1 hy).1)

end

/-! ## Matches of a set of pairs -/

/-- The result of a candidate. -/
def IsHit (weight : Weighing) (fs : List Finding) (ds : List Defect) (p : ℕ × ℕ) (r : MatchResult) : Prop :=
  ∃ d f w x, ds[p.1]? = some d ∧ fs[p.2]? = some f ∧ weight f d = .ok (some w) ∧ roundedScore w = .ok x ∧
    r = MatchResult.matched f d x

/-- The results are those of the pairs, one of each. -/
def Realizes (weight : Weighing) (fs : List Finding) (ds : List Defect) (M : Pairs) (rs : List MatchResult) : Prop :=
  ∃ ps : List (ℕ × ℕ), ps.Nodup ∧ ps.toFinset = M ∧ List.Forall₂ (IsHit weight fs ds) ps rs

/-- The pairs that are chosen in a file. -/
def pairsOf (weight : Weighing) (fs : List Finding) (ds : List Defect) : Pairs :=
  match edges weight fs ds with
  | .ok es => (chosen ds.length fs.length es).toFinset
  | .error _ => ∅

section
variable {weight : Weighing} {fs : List Finding} {ds : List Defect} {M : Pairs} {rs rs' : List MatchResult}
  {r : MatchResult} {p : ℕ × ℕ}

theorem Realizes.perm (h : Realizes weight fs ds M rs) (hp : rs.Perm rs') : Realizes weight fs ds M rs' := by
  obtain ⟨ps, hn, hM, hr⟩ := h
  obtain ⟨qs, hqs, hperm⟩ := List.perm_comp_forall₂ hp.symm hr.flip
  exact ⟨qs, hperm.nodup_iff.2 hn, by rw [← hM]; exact List.toFinset_eq_of_perm _ _ hperm, hqs.flip⟩

/-- What matches carry at one side stands at the positions of that side. -/
theorem filterMap_perm_itemsAt {α : Type} {xs : List α} {ps : List (ℕ × ℕ)} {k : ℕ × ℕ → ℕ}
    {part : MatchResult → Option α} (hk : Set.InjOn k ps.toFinset) (hn : ps.Nodup)
    (h : List.Forall₂ (fun p r => ∃ x, xs[k p]? = some x ∧ part r = some x) ps rs) :
    (rs.filterMap part).Perm (itemsAt xs (ps.toFinset.image k)) := by
  have parts : rs.filterMap part = (ps.map k).filterMap (xs[·]?) ∧ ∀ i ∈ ps.map k, i < xs.length := by
    clear hk hn
    induction h with
    | nil => exact ⟨rfl, by simp⟩
    | cons hpr _ ih =>
      obtain ⟨x, hx, hr⟩ := hpr
      refine ⟨by rw [List.map_cons, List.filterMap_cons_some hr, List.filterMap_cons_some hx, ih.1], ?_⟩
      rw [List.map_cons, List.forall_mem_cons]
      exact ⟨(List.getElem?_eq_some_iff.1 hx).1, ih.2⟩
  have hnk : (ps.map k).Nodup := hn.map_on fun p hp q hq he =>
    hk (mem_coe.2 (List.mem_toFinset.2 hp)) (mem_coe.2 (List.mem_toFinset.2 hq)) he
  have himage : (ps.map k).toFinset = ps.toFinset.image k := by ext i; simp
  rw [parts.1, ← himage]
  exact filterMap_getElem?_perm hnk parts.2

/-- The defects of matches are those at the first positions of the pairs. -/
theorem Realizes.defects (h : Realizes weight fs ds M rs) (oM : OneToOne M) :
    (rs.filterMap (·.defect)).Perm (itemsAt ds (firsts M)) := by
  obtain ⟨ps, hn, rfl, hr⟩ := h
  refine filterMap_perm_itemsAt (fun p hp q hq he => oM.fst_inj p hp q hq he) hn (hr.imp fun p r hpr => ?_)
  obtain ⟨d, f, w, x, hd, hf, hw, hx, rfl⟩ := hpr
  exact ⟨d, hd, rfl⟩

/-- The findings of matches are those at the second positions of the pairs. -/
theorem Realizes.findings (h : Realizes weight fs ds M rs) (oM : OneToOne M) :
    (rs.filterMap (·.finding)).Perm (itemsAt fs (seconds M)) := by
  obtain ⟨ps, hn, rfl, hr⟩ := h
  refine filterMap_perm_itemsAt (fun p hp q hq he => oM.snd_inj p hp q hq he) hn (hr.imp fun p r hpr => ?_)
  obtain ⟨d, f, w, x, hd, hf, hw, hx, rfl⟩ := hpr
  exact ⟨f, hf, rfl⟩

theorem Realizes.exists_hit (h : Realizes weight fs ds M rs) (hr : r ∈ rs) : ∃ p ∈ M, IsHit weight fs ds p r := by
  obtain ⟨ps, hn, rfl, hrs⟩ := h
  obtain ⟨i, hi, rfl⟩ := List.mem_iff_getElem.1 hr
  have hi' : i < ps.length := hrs.length_eq ▸ hi
  exact ⟨ps[i], List.mem_toFinset.2 (List.getElem_mem hi'), hrs.get hi' hi⟩

/-! ## The results -/

theorem pairsOf_eq {es : List Edge} (h : edges weight fs ds = .ok es) :
    pairsOf weight fs ds = (chosen ds.length fs.length es).toFinset := by rw [pairsOf, h]

theorem reduceOption_of_forall₂ {α β : Type} {R : α → β → Prop} {l : List α} {os : List (Option β)}
    (h : List.Forall₂ (fun a o => ∃ b, o = some b ∧ R a b) l os) : List.Forall₂ R l os.reduceOption := by
  induction h with
  | nil => exact .nil
  | cons hab _ ih =>
    obtain ⟨b, rfl, hb⟩ := hab
    rw [List.reduceOption_cons_of_some]
    exact .cons hb ih

theorem any_fst_eq {ps : List (ℕ × ℕ)} (i : ℕ) : ps.any (·.1 == i) = decide (i ∈ firsts ps.toFinset) := by
  rw [Bool.eq_iff_iff]; simp [mem_firsts]

theorem any_snd_eq {ps : List (ℕ × ℕ)} (j : ℕ) : ps.any (·.2 == j) = decide (j ∈ seconds ps.toFinset) := by
  rw [Bool.eq_iff_iff]; simp [mem_seconds]

/-- The results of a file: its matches, its missed defects, its findings that match nothing. -/
theorem matchFile_eq_ok (h : matchFile weight fs ds = .ok rs) :
    (∃ es, edges weight fs ds = .ok es) ∧ ∃ hits, Realizes weight fs ds (pairsOf weight fs ds) hits ∧
      rs = hits ++ (itemsOff ds (firsts (pairsOf weight fs ds))).map MatchResult.missed ++
        (itemsOff fs (seconds (pairsOf weight fs ds))).map MatchResult.unmatched := by
  obtain ⟨es, hes, h⟩ := bind_eq_ok.1 h
  obtain ⟨hits, hhits, h⟩ := bind_eq_ok.1 h
  have hrs := pure_eq_ok.1 h
  obtain ⟨os, hos, rfl⟩ := filterMapM_eq_ok.1 hhits
  refine ⟨⟨es, hes⟩, os.reduceOption, ⟨_, nodup_chosen _ _ _, (pairsOf_eq hes).symm, ?_⟩, ?_⟩
  · refine reduceOption_of_forall₂ ?_
    have hmem : ∀ p ∈ chosen ds.length fs.length es, p ∈ candidates weight fs ds := fun p hp =>
      (preferred_chosen hes).subset (List.mem_toFinset.2 hp)
    refine ((List.forall₂_and_left _ _).2 ⟨hmem, mapM_eq_ok.1 hos⟩).imp fun p o hpo => ?_
    obtain ⟨hp, ho⟩ := hpo
    obtain ⟨w, hw⟩ := mem_candidates.1 hp
    obtain ⟨d, f, hd, hf, hwd⟩ := weightOf_eq_some.1 hw
    simp only [hd, hf, find?_edges hes p, hw, Option.map_some] at ho
    obtain ⟨x, hx, ho⟩ := bind_eq_ok.1 ho
    exact ⟨_, (pure_eq_ok.1 ho).symm, d, f, w, x, hd, hf, hwd, hx, rfl⟩
  · rw [← hrs, pairsOf_eq hes]
    simp only [any_fst_eq, any_snd_eq, itemsOff, List.map_map, decide_not]
    rfl

/-! ## Kinds of results -/

/-- The results of a kind. -/
def ofKind (k : MatchKind) (rs : List MatchResult) : List MatchResult := rs.filter (·.kind == k.label)

/-- The defects that were found. -/
def matchedDefects (rs : List MatchResult) : List Defect := (ofKind .matched rs).filterMap (·.defect)

/-- The findings that found a defect. -/
def matchedFindings (rs : List MatchResult) : List Finding := (ofKind .matched rs).filterMap (·.finding)

/-- The defects that no finding found. -/
def missedDefects (rs : List MatchResult) : List Defect := (ofKind .falseNegative rs).filterMap (·.defect)

theorem ofKind_append (k : MatchKind) (rs rs' : List MatchResult) :
    ofKind k (rs ++ rs') = ofKind k rs ++ ofKind k rs' := List.filter_append ..

theorem ofKind_perm (k : MatchKind) (h : rs.Perm rs') : (ofKind k rs).Perm (ofKind k rs') := h.filter _

theorem ofKind_eq_self {k : MatchKind} (h : ∀ r ∈ rs, r.kind = k.label) : ofKind k rs = rs :=
  List.filter_eq_self.2 fun r hr => beq_iff_eq.2 (h r hr)

theorem ofKind_eq_nil {k : MatchKind} (h : ∀ r ∈ rs, r.kind ≠ k.label) : ofKind k rs = [] :=
  List.filter_eq_nil_iff.2 fun r hr => by simpa using h r hr

theorem label_injective {k k' : MatchKind} (h : k.label = k'.label) : k = k' := by
  revert h; cases k <;> cases k' <;> decide

theorem Realizes.kind (h : Realizes weight fs ds M rs) : ∀ r ∈ rs, r.kind = MatchKind.matched.label := by
  intro r hr
  obtain ⟨p, -, d, f, w, x, -, -, -, -, rfl⟩ := h.exists_hit hr
  rfl

theorem kind_unmatched (f : Finding) : (MatchResult.unmatched f).kind = MatchKind.unclassified.label ∨
    (MatchResult.unmatched f).kind = MatchKind.falsePositive.label := by
  simp only [MatchResult.unmatched]
  cases f.isUnclassified <;> simp

theorem preferred_of_matchFile (h : matchFile weight fs ds = .ok rs) :
    Preferred (candidates weight fs ds) (primaryOf weight fs ds) (defectBonus ds.length fs.length)
      (findingBonus fs.length) (pairsOf weight fs ds) := by
  obtain ⟨⟨es, hes⟩, -⟩ := matchFile_eq_ok h
  rw [pairsOf_eq hes]
  exact preferred_chosen hes

theorem matched_of_matchFile (h : matchFile weight fs ds = .ok rs) :
    Realizes weight fs ds (pairsOf weight fs ds) (ofKind .matched rs) := by
  obtain ⟨-, hits, hhits, rfl⟩ := matchFile_eq_ok h
  have missed : ofKind .matched ((itemsOff ds (firsts (pairsOf weight fs ds))).map MatchResult.missed) = [] :=
    ofKind_eq_nil fun r hr => by
      obtain ⟨d, -, rfl⟩ := List.mem_map.1 hr
      exact fun e => nomatch label_injective (k := .falseNegative) e
  have unmatched : ofKind .matched ((itemsOff fs (seconds (pairsOf weight fs ds))).map MatchResult.unmatched) = [] :=
    ofKind_eq_nil fun r hr => by
      obtain ⟨f, -, rfl⟩ := List.mem_map.1 hr
      rcases kind_unmatched f with e | e <;> rw [e] <;> exact fun e => nomatch label_injective e
  rw [ofKind_append, ofKind_append, ofKind_eq_self hhits.kind, missed, unmatched, List.append_nil, List.append_nil]
  exact hhits

theorem missed_of_matchFile (h : matchFile weight fs ds = .ok rs) :
    ofKind .falseNegative rs = (itemsOff ds (firsts (pairsOf weight fs ds))).map MatchResult.missed := by
  obtain ⟨-, hits, hhits, rfl⟩ := matchFile_eq_ok h
  have matched : ofKind .falseNegative hits = [] := ofKind_eq_nil fun r hr => by
    rw [hhits.kind r hr]; exact fun e => nomatch label_injective e
  have unmatched :
      ofKind .falseNegative ((itemsOff fs (seconds (pairsOf weight fs ds))).map MatchResult.unmatched) = [] :=
    ofKind_eq_nil fun r hr => by
      obtain ⟨f, -, rfl⟩ := List.mem_map.1 hr
      rcases kind_unmatched f with e | e <;> rw [e] <;> exact fun e => nomatch label_injective e
  have missed :
      ofKind .falseNegative ((itemsOff ds (firsts (pairsOf weight fs ds))).map MatchResult.missed) =
        (itemsOff ds (firsts (pairsOf weight fs ds))).map MatchResult.missed :=
    ofKind_eq_self fun r hr => by
      obtain ⟨d, -, rfl⟩ := List.mem_map.1 hr
      rfl
  rw [ofKind_append, ofKind_append, matched, unmatched, missed, List.nil_append, List.append_nil]

/-- What a run makes of findings and defects. -/
inductive Shaped : MatchResult → Prop where
  | matched (f : Finding) (d : Defect) (x : Float) : Shaped (MatchResult.matched f d x)
  | missed (d : Defect) : Shaped (MatchResult.missed d)
  | unmatched (f : Finding) : Shaped (MatchResult.unmatched f)

theorem shaped_of_matchFile (h : matchFile weight fs ds = .ok rs) (hr : r ∈ rs) : Shaped r := by
  obtain ⟨-, hits, hhits, rfl⟩ := matchFile_eq_ok h
  rw [List.mem_append, List.mem_append, List.mem_map, List.mem_map] at hr
  rcases hr with (hr | ⟨d, -, rfl⟩) | ⟨f, -, rfl⟩
  · obtain ⟨p, -, d, f, w, x, -, -, -, -, rfl⟩ := hhits.exists_hit hr
    exact .matched f d x
  · exact .missed d
  · exact .unmatched f

/-! ## Nothing is lost -/

theorem filterMap_defect_missed (ds : List Defect) : (ds.map MatchResult.missed).filterMap (·.defect) = ds := by
  rw [List.filterMap_map]; exact List.filterMap_some

theorem missedDefects_of_matchFile (h : matchFile weight fs ds = .ok rs) :
    missedDefects rs = itemsOff ds (firsts (pairsOf weight fs ds)) := by
  rw [missedDefects, missed_of_matchFile h, filterMap_defect_missed]

theorem filterMap_finding_unmatched (fs : List Finding) :
    (fs.map MatchResult.unmatched).filterMap (·.finding) = fs := by
  rw [List.filterMap_map]; exact List.filterMap_some

/-- Every defect of a file stands in one result. -/
theorem defects_of_matchFile (h : matchFile weight fs ds = .ok rs) : (rs.filterMap (·.defect)).Perm ds := by
  have oM := (preferred_of_matchFile h).oneToOne
  obtain ⟨-, hits, hhits, rfl⟩ := matchFile_eq_ok h
  have none : ((itemsOff fs (seconds (pairsOf weight fs ds))).map MatchResult.unmatched).filterMap (·.defect) = [] := by
    rw [List.filterMap_map]; exact List.filterMap_eq_nil_iff.2 fun _ _ => rfl
  rw [List.filterMap_append, List.filterMap_append, filterMap_defect_missed, none, List.append_nil]
  exact ((hhits.defects oM).append_right _).trans (itemsAt_append_itemsOff_perm ds _)

/-- Every finding of a file stands in one result. -/
theorem findings_of_matchFile (h : matchFile weight fs ds = .ok rs) : (rs.filterMap (·.finding)).Perm fs := by
  have oM := (preferred_of_matchFile h).oneToOne
  obtain ⟨-, hits, hhits, rfl⟩ := matchFile_eq_ok h
  have none : ((itemsOff ds (firsts (pairsOf weight fs ds))).map MatchResult.missed).filterMap (·.finding) = [] := by
    rw [List.filterMap_map]; exact List.filterMap_eq_nil_iff.2 fun _ _ => rfl
  rw [List.filterMap_append, List.filterMap_append, filterMap_finding_unmatched, none, List.append_nil]
  exact ((hhits.findings oM).append_right _).trans (itemsAt_append_itemsOff_perm fs _)

end

end Assay.Matching
