import Assay.Proofs.Ranking

/-!
# The order of the input

A run groups its input by file and ranks what is in a file, so it does not matter in which order findings
and defects are given: if no two findings of a file have one index and no two defects of a file have one
name, sample and first line, then sorting leaves one list for every order of the input
(`Ranking.mergeSort_eq_of_perm`), and everything after that works on the same lists (`results_of_perm`).
-/

namespace Assay

/-! ## Sorted lists of different ranks -/

section
variable {α : Type} {le : α → α → Bool} {l l' : List α}

/-- If no two items have one rank, sorting forgets the order in which they were given. -/
theorem Ranking.mergeSort_eq_of_perm (h : Ranking le) (hp : l.Perm l')
    (hd : l.Pairwise fun a b => ¬(le a b = true ∧ le b a = true)) : l.mergeSort le = l'.mergeSort le := by
  have perm : (l.mergeSort le).Perm (l'.mergeSort le) :=
    (List.mergeSort_perm l le).trans (hp.trans (List.mergeSort_perm l' le).symm)
  refine perm.eq_of_pairwise ?_ (h.pairwise l) (h.pairwise l')
  intro a b ha hb hab hba
  rw [List.mem_mergeSort] at ha hb
  by_contra hne
  have symm : Std.Symm fun a b => ¬(le a b = true ∧ le b a = true) := ⟨fun a b hn e => hn e.symm⟩
  exact hd.forall ha (hp.mem_iff.2 hb) hne ⟨hab, hba⟩

end

namespace Diagnostics

theorem ranking_names : Ranking fun a b : String => !Text.before b a :=
  .of_key Text.rankKey fun _ _ => Text.not_before_iff

theorem ascending_pairwise (a : List String) :
    (ascending a).Pairwise fun s t => Text.rankKey s ≤ Text.rankKey t :=
  (ranking_names.pairwise a).imp fun h => Text.not_before_iff.1 h

/-- Names in order are determined by how often each of them occurs. -/
theorem ascending_eq_of_perm {a b : List String} (h : a.Perm b) : ascending a = ascending b := by
  have perm : (ascending a).Perm (ascending b) :=
    (List.mergeSort_perm a _).trans (h.trans (List.mergeSort_perm b _).symm)
  refine perm.eq_of_pairwise ?_ (ascending_pairwise a) (ascending_pairwise b)
  intro s t _ _ hst hts
  exact Text.rankKey_inj.1 (le_antisymm hst hts)

/-- The names of a list, each once and in order, depend on nothing but which names are in it. -/
theorem canonical_congr {names names' : List String} (h : ∀ n, n ∈ names ↔ n ∈ names') :
    canonical names = canonical names' := by
  refine ascending_eq_of_perm ((List.perm_ext_iff_of_nodup (nodup_distinct names) (nodup_distinct names')).2 fun n => ?_)
  rw [mem_distinct, mem_distinct, h]

end Diagnostics

namespace Matching

/-! ## The items of a file -/

/-- The findings of each file have indexes of their own. -/
def DistinctIndexes (fs : List Finding) : Prop := fs.Pairwise fun f g => f.file = g.file → f.index ≠ g.index

/-- The defects of each file differ in name, sample or first line. -/
def DistinctNames (ds : List Defect) : Prop :=
  ds.Pairwise fun d e => d.file = e.file →
    (d.id, d.sampleId, d.location.lineStart) ≠ (e.id, e.sampleId, e.location.lineStart)

instance (fs : List Finding) : Decidable (DistinctIndexes fs) := inferInstanceAs (Decidable (List.Pairwise _ _))

instance (ds : List Defect) : Decidable (DistinctNames ds) := inferInstanceAs (Decidable (List.Pairwise _ _))

variable {fs fs' : List Finding} {ds ds' : List Defect}

/-- Items that are kept apart within each file are kept apart in a file. -/
theorem pairwise_filter_file {α : Type} {file : α → String} {R : α → α → Prop} {xs : List α}
    (h : xs.Pairwise fun a b => file a = file b → R a b) (k : String) : (xs.filter (file · == k)).Pairwise R := by
  rw [List.pairwise_filter]
  refine h.imp fun {a b} hab ha hb => hab ?_
  rw [beq_iff_eq] at ha hb
  rw [ha, hb]

theorem findingsIn_eq_of_perm (hp : fs.Perm fs') (hd : DistinctIndexes fs) (file : String) :
    findingsIn file fs = findingsIn file fs' := by
  refine ranking_findings.mergeSort_eq_of_perm (hp.filter _) ((pairwise_filter_file hd file).imp ?_)
  intro f g hne hle
  exact hne (le_antisymm (of_decide_eq_true hle.1) (of_decide_eq_true hle.2))

theorem defectKey_inj {d e : Defect} : defectKey d = defectKey e ↔
    (d.id, d.sampleId, d.location.lineStart) = (e.id, e.sampleId, e.location.lineStart) := by
  simp [defectKey, Text.rankKey_inj]

theorem defectsIn_eq_of_perm (hp : ds.Perm ds') (hd : DistinctNames ds) (file : String) :
    defectsIn file ds = defectsIn file ds' := by
  refine ranking_defects.mergeSort_eq_of_perm (hp.filter _) ((pairwise_filter_file hd file).imp ?_)
  intro d e hne hle
  rw [not_defectBefore_iff, not_defectBefore_iff] at hle
  exact hne (defectKey_inj.1 (le_antisymm hle.1 hle.2))

theorem files_eq_of_perm (hf : fs.Perm fs') (hd : ds.Perm ds') : files fs ds = files fs' ds' :=
  Diagnostics.canonical_congr fun _ => ((hd.map _).append (hf.map _)).mem_iff

/-! ## Runs -/

/-- Under any weighing, what every file gives and how it is put in order does not depend on the order of
the input. -/
theorem matchWith_eq_of_perm (weight : Weighing) (hf : fs.Perm fs') (hd : ds.Perm ds') (df : DistinctIndexes fs)
    (dd : DistinctNames ds) : matchWith weight fs ds = matchWith weight fs' ds' := by
  unfold matchWith
  rw [files_eq_of_perm hf hd]
  simp only [findingsIn_eq_of_perm hf df, defectsIn_eq_of_perm hd dd]

/-- **Order of the input.** A run gives the same list of results, or the same fault, in whatever order its
findings and defects are given. -/
theorem results_of_perm (s : MatchSettings) (hf : fs.Perm fs') (hd : ds.Perm ds') (df : DistinctIndexes fs)
    (dd : DistinctNames ds) : run s fs ds = run s fs' ds' :=
  matchWith_eq_of_perm (pairWeight s) hf hd df dd

theorem results_of_perm_twins : run plainSettings [twinFinding, loneFinding] [loneDefect] =
    .ok [MatchResult.matched loneFinding loneDefect 1, MatchResult.unmatched twinFinding] := by
  rw [results_of_perm plainSettings (.swap loneFinding twinFinding []) (.refl [loneDefect]) (by decide) (by decide)]
  exact run_twins

end Matching

end Assay
