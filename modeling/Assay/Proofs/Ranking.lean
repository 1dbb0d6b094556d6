import Assay.Proofs.Results

/-!
# Ranks in a file

The defects of a file are ranked by name, sample and first line, its findings by index; sorting is
stable, so items of one rank keep the order in which they were given. One more item therefore only
makes room at one place of the sorted list (`Ranking.mergeSort_insert`): every other item keeps its
neighbours.
-/

namespace Assay

/-! ## Stable sorting -/

/-- A total order of ranks, which different items may share. -/
structure Ranking {α : Type} (le : α → α → Bool) : Prop where
  trans : ∀ a b c, le a b = true → le b c = true → le a c = true
  total : ∀ a b, (le a b || le b a) = true

section
variable {α : Type} {le : α → α → Bool}

theorem Ranking.of_key {κ : Type} [LinearOrder κ] (key : α → κ) (h : ∀ a b, le a b = true ↔ key a ≤ key b) :
    Ranking le := by
  refine ⟨fun a b c hab hbc => ?_, fun a b => ?_⟩
  · exact (h a c).2 (le_trans ((h a b).1 hab) ((h b c).1 hbc))
  · rw [Bool.or_eq_true, h, h]; exact le_total _ _

theorem Ranking.pairwise (h : Ranking le) (l : List α) : (l.mergeSort le).Pairwise (le · · = true) :=
  List.pairwise_mergeSort h.trans h.total l

/-- An item goes before the first one that it does not rank behind. -/
theorem Ranking.mergeSort_cons (h : Ranking le) (a : α) (l : List α) :
    (a :: l).mergeSort le =
      (l.mergeSort le).takeWhile (!le a ·) ++ a :: (l.mergeSort le).dropWhile (!le a ·) := by
  obtain ⟨P, Q, hcons, hl, hP⟩ := List.mergeSort_cons h.trans h.total a l
  have hpair := h.pairwise (a :: l)
  rw [hcons] at hpair
  have hQ : ∀ b ∈ Q, le a b = true := (List.pairwise_cons.1 (List.pairwise_append.1 hpair).2.1).1
  have take : Q.takeWhile (!le a ·) = [] := by
    cases Q with
    | nil => rfl
    | cons b Q => exact List.takeWhile_cons_of_neg (by simp [hQ b (List.mem_cons_self ..)])
  have drop : Q.dropWhile (!le a ·) = Q := by
    cases Q with
    | nil => rfl
    | cons b Q => exact List.dropWhile_cons_of_neg (by simp [hQ b (List.mem_cons_self ..)])
  rw [hcons, hl, List.takeWhile_append_of_pos hP, List.dropWhile_append_of_pos hP, take, drop, List.append_nil]

theorem takeWhile_append_of_exists {p : α → Bool} {l l' : List α} (h : ¬ ∀ b ∈ l, p b = true) :
    (l ++ l').takeWhile p = l.takeWhile p ∧ (l ++ l').dropWhile p = l.dropWhile p ++ l' := by
  have hdrop : l.dropWhile p ≠ [] := fun e => h (List.dropWhile_eq_nil_iff.1 e)
  have htake : (l.takeWhile p).length ≠ l.length := fun e => by
    have hlen := congrArg List.length (List.takeWhile_append_dropWhile (p := p) (l := l))
    rw [List.length_append, e] at hlen
    exact hdrop (List.length_eq_zero_iff.1 (by omega))
  rw [List.takeWhile_append, if_neg htake, List.dropWhile_append, if_neg (by simpa using hdrop)]
  exact ⟨rfl, rfl⟩

/-- **Insertion.** Wherever an item is added to a list, the sorted list makes room for it at one place. -/
theorem Ranking.mergeSort_insert (h : Ranking le) (a : α) : ∀ l₁ l₂ : List α, ∃ L₁ L₂,
    (l₁ ++ a :: l₂).mergeSort le = L₁ ++ a :: L₂ ∧ (l₁ ++ l₂).mergeSort le = L₁ ++ L₂
  | [], l₂ => by
    obtain ⟨L₁, L₂, h1, h2, -⟩ := List.mergeSort_cons h.trans h.total a l₂
    exact ⟨L₁, L₂, h1, h2⟩
  | x :: l₁, l₂ => by
    obtain ⟨L₁, L₂, h1, h2⟩ := h.mergeSort_insert a l₁ l₂
    have hpair := h.pairwise (l₁ ++ a :: l₂)
    rw [h1] at hpair
    have ha : ∀ b ∈ L₂, le a b = true := (List.pairwise_cons.1 (List.pairwise_append.1 hpair).2.1).1
    rw [List.cons_append, List.cons_append, h.mergeSort_cons, h.mergeSort_cons, h1, h2]
    by_cases hL : ∀ b ∈ L₁, (!le x b) = true
    · rw [List.takeWhile_append_of_pos hL, List.dropWhile_append_of_pos hL, List.takeWhile_append_of_pos hL,
        List.dropWhile_append_of_pos hL]
      by_cases hx : le x a = true
      · -- what `a` does not rank behind, `x` does not either
        have htake : L₂.takeWhile (!le x ·) = [] ∧ L₂.dropWhile (!le x ·) = L₂ := by
          cases L₂ with
          | nil => exact ⟨rfl, rfl⟩
          | cons b L₂ =>
            have hb : ¬ (!le x b) = true := by simp [h.trans x a b hx (ha b (List.mem_cons_self ..))]
            exact ⟨List.takeWhile_cons_of_neg hb, List.dropWhile_cons_of_neg hb⟩
        rw [List.takeWhile_cons_of_neg (by simp [hx]), List.dropWhile_cons_of_neg (by simp [hx]), htake.1, htake.2]
        exact ⟨L₁ ++ [x], L₂, by simp, by simp⟩
      · rw [List.takeWhile_cons_of_pos (by simp [hx]), List.dropWhile_cons_of_pos (by simp [hx])]
        exact ⟨L₁, L₂.takeWhile (!le x ·) ++ x :: L₂.dropWhile (!le x ·), by simp, by simp⟩
    · have stops : ∀ l, (L₁ ++ l).takeWhile (!le x ·) = L₁.takeWhile (!le x ·) ∧
          (L₁ ++ l).dropWhile (!le x ·) = L₁.dropWhile (!le x ·) ++ l := fun l => takeWhile_append_of_exists hL
      refine ⟨L₁.takeWhile (!le x ·) ++ x :: L₁.dropWhile (!le x ·), L₂, ?_, ?_⟩
      · rw [(stops _).1, (stops _).2, List.append_assoc, List.cons_append]
      · rw [(stops _).1, (stops _).2, List.append_assoc, List.cons_append]

/-- Items in order whose names are different are strictly in order, if items of one rank have one name. -/
theorem Ranking.strict {κ ν : Type} [LinearOrder κ] (key : α → κ) (name : α → ν) {l : List α}
    (hle : ∀ a b, le a b = true ↔ key a ≤ key b) (hname : ∀ a b, key a = key b → name a = name b)
    (hd : (l.map name).Nodup) : (l.mergeSort le).Pairwise fun a b => key a < key b := by
  have hsorted := (Ranking.of_key key hle).pairwise l
  have hdistinct : (l.mergeSort le).Pairwise fun a b => name a ≠ name b :=
    List.pairwise_map.1 (((List.mergeSort_perm l le).map name).nodup_iff.2 hd)
  refine (hsorted.and hdistinct).imp ?_
  intro a b hab
  exact lt_of_le_of_ne ((hle a b).1 hab.1) fun e => hab.2 (hname a b e)

end

/-! ## Ranks of texts, defects and findings -/

namespace Text

/-- A text by its code points. Texts of the same code points differ in how they are held. -/
def rankKey (a : String) : List ℕ ×ₗ String := toLex (units a.toList, a)

theorem before_iff {a b : String} : before a b = true ↔ rankKey a < rankKey b := by
  simp [before, rankKey, Prod.Lex.toLex_lt_toLex]

theorem rankKey_inj {a b : String} : rankKey a = rankKey b ↔ a = b :=
  ⟨fun h => (Prod.mk.inj (toLex_inj.1 h)).2, congrArg _⟩

theorem not_before_iff {a b : String} : (!before b a) = true ↔ rankKey a ≤ rankKey b := by
  rw [Bool.not_eq_true', ← Bool.not_eq_true, before_iff, not_lt]

end Text

namespace Matching

/-- The rank of a defect: its name, then its sample, then its first line. -/
def defectKey (d : Defect) : (List ℕ ×ₗ String) ×ₗ (List ℕ ×ₗ String) ×ₗ ℤ :=
  toLex (Text.rankKey d.id, toLex (Text.rankKey d.sampleId, d.location.lineStart))

theorem defectBefore_iff {a b : Defect} : defectBefore a b = true ↔ defectKey a < defectKey b := by
  simp [defectBefore, defectKey, Prod.Lex.toLex_lt_toLex, Text.before_iff, Text.rankKey_inj]

theorem not_defectBefore_iff {a b : Defect} : (!defectBefore b a) = true ↔ defectKey a ≤ defectKey b := by
  rw [Bool.not_eq_true', ← Bool.not_eq_true, defectBefore_iff, not_lt]

theorem ranking_defects : Ranking fun a b => !defectBefore b a :=
  .of_key defectKey fun _ _ => not_defectBefore_iff

theorem ranking_findings : Ranking fun a b : Finding => decide (a.index ≤ b.index) :=
  .of_key Finding.index fun _ _ => decide_eq_true_iff

theorem defectsIn_pairwise (file : String) (ds : List Defect) :
    (defectsIn file ds).Pairwise fun a b => defectKey a ≤ defectKey b :=
  (ranking_defects.pairwise _).imp fun hab => not_defectBefore_iff.1 hab

theorem findingsIn_pairwise (file : String) (fs : List Finding) :
    (findingsIn file fs).Pairwise fun a b => a.index ≤ b.index :=
  (ranking_findings.pairwise _).imp fun hab => of_decide_eq_true hab

end Matching

end Assay
