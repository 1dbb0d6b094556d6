import Assay.Proofs.FileResults
import Assay.Metrics

/-!
# What the metrics count

A tally counts the results of a category kind by kind: matches and missed defects by the category of the
defect, spurious findings by their own. The tallies of all categories add up to the counts of all
results, and a category that is not listed has counted nothing.
-/

namespace Assay

/-! ## Sums of tallies -/

namespace Tally

@[simp] theorem zero_add (t : Tally) : zero.add t = t := by simp [add, zero]

@[simp] theorem add_zero (t : Tally) : t.add zero = t := by simp [add, zero]

theorem add_assoc (a b c : Tally) : (a.add b).add c = a.add (b.add c) := by
  simp only [add, Nat.add_assoc]

theorem add_left_comm (a b c : Tally) : a.add (b.add c) = b.add (a.add c) := by
  simp only [add, Nat.add_left_comm]

/-- All tallies together. -/
def sum (ts : List Tally) : Tally := ts.foldl add zero

theorem foldl_add (t : Tally) (ts : List Tally) : ts.foldl add t = t.add (sum ts) := by
  induction ts generalizing t with
  | nil => simp [sum]
  | cons u ts ih =>
    have hs : sum (u :: ts) = ts.foldl add (zero.add u) := rfl
    rw [List.foldl_cons, ih, hs, ih, zero_add, add_assoc]

theorem sum_cons (t : Tally) (ts : List Tally) : sum (t :: ts) = t.add (sum ts) := by
  rw [sum, List.foldl_cons, foldl_add, zero_add]

theorem sum_map_add {α : Type} (l : List α) (f g : α → Tally) :
    sum (l.map fun a => (f a).add (g a)) = (sum (l.map f)).add (sum (l.map g)) := by
  induction l with
  | nil => rfl
  | cons a l ih =>
    simp only [List.map_cons, sum_cons, ih, add_assoc]
    rw [add_left_comm (g a)]

/-- Empty tallies count for nothing. -/
theorem sum_map_filter {α : Type} (l : List α) (f : α → Tally) :
    sum ((l.filter fun a => f a != zero).map f) = sum (l.map f) := by
  induction l with
  | nil => rfl
  | cons a l ih =>
    by_cases h : f a = zero
    · rw [List.filter_cons_of_neg (by simp [h]), List.map_cons, sum_cons, h, zero_add, ih]
    · rw [List.filter_cons_of_pos (by simp [h]), List.map_cons, List.map_cons, sum_cons, sum_cons, ih]

end Tally

/-! ## Contributions -/

namespace Contribution

/-- The tally of a contribution in whatever category. -/
def tally : Contribution → Tally
  | .matched _ _ => ⟨1, 0, 0⟩
  | .missed _ _ => ⟨0, 0, 1⟩
  | .spurious _ => ⟨0, 1, 0⟩
  | .unclassified => .zero

/-- A contribution counts in one category. -/
theorem sum_tallyFor (x : Contribution) : Tally.sum (Category.all.map x.tallyFor) = x.tally := by
  cases x with
  | matched c b => cases c <;> rfl
  | missed c b => cases c <;> rfl
  | spurious c => cases c <;> rfl
  | unclassified => rfl

end Contribution

/-- The kind of a result is known, and the parts that it needs are there. -/
def MatchResult.IsWellFormed (r : MatchResult) : Prop :=
  ∃ k, MatchKind.ofLabel? r.kind = some k ∧ (k.needsDefect = true → r.defect.isSome = true) ∧
    (k.needsFinding = true → r.finding.isSome = true)

namespace Metrics

theorem tallyOf_eq_sum (cs : List Contribution) (c : Category) : tallyOf cs c = Tally.sum (cs.map (·.tallyFor c)) := by
  rw [tallyOf, Tally.sum, List.foldl_map]

theorem tallyOf_cons (x : Contribution) (cs : List Contribution) (c : Category) :
    tallyOf (x :: cs) c = (x.tallyFor c).add (tallyOf cs c) := by
  rw [tallyOf_eq_sum, tallyOf_eq_sum, List.map_cons, Tally.sum_cons]

/-- The tallies of all categories together count every contribution once. -/
theorem sum_tallyOf (cs : List Contribution) :
    Tally.sum ((present cs).map (tallyOf cs)) = Tally.sum (cs.map Contribution.tally) := by
  rw [present, Tally.sum_map_filter]
  induction cs with
  | nil => rfl
  | cons x cs ih =>
    rw [List.map_cons, Tally.sum_cons, ← ih, ← x.sum_tallyFor, ← Tally.sum_map_add]
    exact congrArg Tally.sum (List.map_congr_left fun c _ => tallyOf_cons x cs c)

/-- The tally that metrics list for a category; nothing if they do not list it. -/
def tallyAt (m : Metrics) (c : Category) : Tally := ((m.byCategory.lookup c).map Block.tally).getD .zero

theorem lookup_map {β : Type} (f : Category → β) (c : Category) : ∀ l : List Category,
    (l.map fun c => (c, f c)).lookup c = if c ∈ l then some (f c) else none
  | [] => rfl
  | a :: l => by
    rw [List.map_cons, List.lookup_cons, lookup_map f c l]
    by_cases h : c = a
    · simp [h]
    · simp [h, beq_eq_false_iff_ne.2 h]

theorem tallyAt_ofContributions (cs : List Contribution) (c : Category) :
    (ofContributions cs).tallyAt c = tallyOf cs c := by
  have h : (ofContributions cs).byCategory =
      (present cs).map fun c => (c, Block.ofTally (0 < (tallyOf cs c).defects) (tallyOf cs c)) := rfl
  rw [tallyAt, h, lookup_map]
  by_cases hc : c ∈ present cs
  · rw [if_pos hc]; rfl
  · rw [if_neg hc]
    by_contra hne
    exact hc (List.mem_filter.2 ⟨Category.mem_all c, by simpa using fun e => hne e.symm⟩)

theorem nodup_byCategory (cs : List Contribution) : ((ofContributions cs).byCategory.map (·.1)).Nodup := by
  have h : (ofContributions cs).byCategory.map (·.1) = present cs := by
    simp [ofContributions, Function.comp_def]
  rw [h]
  exact List.Nodup.filter _ (by decide)

theorem sum_byCategory (cs : List Contribution) :
    Tally.sum ((ofContributions cs).byCategory.map (·.2.tally)) = (ofContributions cs).overall.tally := by
  have h : (ofContributions cs).byCategory.map (·.2.tally) = (present cs).map (tallyOf cs) := by
    simp [ofContributions, Function.comp_def, Block.ofTally]
  rw [h]
  rfl

/-! ## Results -/

open Matching

variable {rs : List MatchResult} {cs : List Contribution} {r : MatchResult} {x : Contribution}

theorem ofKind_singleton {k : MatchKind} (h : MatchKind.ofLabel? r.kind = some k) (k' : MatchKind) :
    ofKind k' [r] = if k' = k then [r] else [] := by
  have hk : k.label = r.kind := by simpa using List.find?_some h
  split
  · rename_i e; exact ofKind_eq_self fun r' hr => by rw [List.mem_singleton.1 hr, ← hk, e]
  · rename_i e; exact ofKind_eq_nil fun r' hr e' =>
      e (label_injective (by rw [← e', List.mem_singleton.1 hr, hk]))

/-- The findings that match no known defect. -/
def spuriousFindings (rs : List MatchResult) : List Finding := (ofKind .falsePositive rs).filterMap (·.finding)

/-- How many results of each sort are attributed to a category. -/
def tallyIn (c : Category) (rs : List MatchResult) : Tally where
  matched := (matchedDefects rs).countP (·.category == c)
  spurious := (spuriousFindings rs).countP (·.primary == c)
  missed := (missedDefects rs).countP (·.category == c)

/-- How many results of each sort there are. -/
def tallyAll (rs : List MatchResult) : Tally :=
  ⟨(matchedDefects rs).length, (spuriousFindings rs).length, (missedDefects rs).length⟩

theorem filterMap_ofKind_cons {α : Type} (k : MatchKind) (part : MatchResult → Option α) (r : MatchResult)
    (rs : List MatchResult) :
    (ofKind k (r :: rs)).filterMap part = (ofKind k [r]).filterMap part ++ (ofKind k rs).filterMap part := by
  rw [← List.singleton_append, ofKind_append, List.filterMap_append]

theorem tallyIn_cons (c : Category) (r : MatchResult) (rs : List MatchResult) :
    tallyIn c (r :: rs) = (tallyIn c [r]).add (tallyIn c rs) := by
  simp only [tallyIn, matchedDefects, spuriousFindings, missedDefects]
  rw [filterMap_ofKind_cons .matched, filterMap_ofKind_cons .falsePositive, filterMap_ofKind_cons .falseNegative]
  simp only [List.countP_append, Tally.add]

theorem tallyAll_cons (r : MatchResult) (rs : List MatchResult) :
    tallyAll (r :: rs) = (tallyAll [r]).add (tallyAll rs) := by
  simp only [tallyAll, matchedDefects, spuriousFindings, missedDefects]
  rw [filterMap_ofKind_cons .matched, filterMap_ofKind_cons .falsePositive, filterMap_ofKind_cons .falseNegative]
  simp only [List.length_append, Tally.add]

/-- What a result adds, and where it takes that from. -/
theorem ofResult_eq_ok (h : Contribution.ofResult r = .ok x) :
    (∃ d, MatchKind.ofLabel? r.kind = some .matched ∧ r.defect = some d ∧ x = .matched d.category d.conditional) ∨
    (∃ d, MatchKind.ofLabel? r.kind = some .falseNegative ∧ r.defect = some d ∧
      x = .missed d.category d.conditional) ∨
    (∃ f, MatchKind.ofLabel? r.kind = some .falsePositive ∧ r.finding = some f ∧ x = .spurious f.primary) ∨
    (MatchKind.ofLabel? r.kind = some .unclassified ∧ x = .unclassified) := by
  unfold Contribution.ofResult at h
  split at h
  · cases h
  next hk =>
    split at h
    next d hd => exact .inl ⟨d, hk, hd, (Except.ok.inj h).symm⟩
    · cases h
  next hk =>
    split at h
    next d hd => exact .inr (.inl ⟨d, hk, hd, (Except.ok.inj h).symm⟩)
    · cases h
  next hk =>
    split at h
    next f hf => exact .inr (.inr (.inl ⟨f, hk, hf, (Except.ok.inj h).symm⟩))
    · cases h
  next hk => exact .inr (.inr (.inr ⟨hk, (Except.ok.inj h).symm⟩))

/-- A well-formed result is counted. -/
theorem ofResult_of_isWellFormed (h : r.IsWellFormed) : ∃ x, Contribution.ofResult r = .ok x := by
  obtain ⟨k, hk, hdefect, hfinding⟩ := h
  unfold Contribution.ofResult
  rw [hk]
  cases k with
  | matched | falseNegative =>
    obtain ⟨d, hd⟩ := Option.isSome_iff_exists.1 (hdefect rfl)
    simp [hd]
  | falsePositive =>
    obtain ⟨f, hf⟩ := Option.isSome_iff_exists.1 (hfinding rfl)
    simp [hf]
  | unclassified => exact ⟨_, rfl⟩

/-- What one result adds to the tallies. -/
theorem tally_ofResult (h : Contribution.ofResult r = .ok x) :
    x.tally = tallyAll [r] ∧ ∀ c, x.tallyFor c = tallyIn c [r] := by
  simp only [tallyAll, tallyIn, matchedDefects, spuriousFindings, missedDefects]
  rcases ofResult_eq_ok h with ⟨d, hk, hd, rfl⟩ | ⟨d, hk, hd, rfl⟩ | ⟨f, hk, hf, rfl⟩ | ⟨hk, rfl⟩ <;>
    simp only [ofKind_singleton hk]
  · refine ⟨by simp [hd, Contribution.tally], fun c => ?_⟩
    by_cases hc : d.category = c <;> simp [hd, hc, Contribution.tallyFor, Tally.zero]
  · refine ⟨by simp [hd, Contribution.tally], fun c => ?_⟩
    by_cases hc : d.category = c <;> simp [hd, hc, Contribution.tallyFor, Tally.zero]
  · refine ⟨by simp [hf, Contribution.tally], fun c => ?_⟩
    by_cases hc : f.primary = c <;> simp [hf, hc, Contribution.tallyFor, Tally.zero]
  · exact ⟨by simp [Contribution.tally, Tally.zero], fun c => by simp [Contribution.tallyFor, Tally.zero]⟩

/-- The tallies of contributions are those of the results. -/
theorem tallies_of_results (h : rs.mapM Contribution.ofResult = .ok cs) :
    Tally.sum (cs.map Contribution.tally) = tallyAll rs ∧ ∀ c, tallyOf cs c = tallyIn c rs := by
  induction mapM_eq_ok.1 h with
  | nil => exact ⟨rfl, fun c => rfl⟩
  | @cons r x rs cs hr hrs ih =>
    obtain ⟨hall, hin⟩ := tally_ofResult hr
    obtain ⟨ihall, ihin⟩ := ih (mapM_eq_ok.2 hrs)
    refine ⟨?_, fun c => ?_⟩
    · rw [List.map_cons, Tally.sum_cons, tallyAll_cons, hall, ihall]
    · rw [tallyOf_cons, tallyIn_cons, hin, ihin]

/-- The tally of a category counts the defects of results. -/
theorem tallyOf_results (h : rs.mapM Contribution.ofResult = .ok cs) (c : Category) :
    (tallyOf cs c).matched = (matchedDefects rs).countP (·.category == c) ∧
      (tallyOf cs c).missed = (missedDefects rs).countP (·.category == c) := by
  rw [(tallies_of_results h).2 c]
  exact ⟨rfl, rfl⟩

/-! ## Results of a run -/

theorem ofResult_matched (f : Finding) (d : Defect) (x : Float) :
    Contribution.ofResult (MatchResult.matched f d x) = .ok (.matched d.category d.conditional) := rfl

theorem ofResult_missed (d : Defect) :
    Contribution.ofResult (MatchResult.missed d) = .ok (.missed d.category d.conditional) := rfl

theorem ofResult_unmatched (f : Finding) : Contribution.ofResult (MatchResult.unmatched f) =
    .ok (if f.isUnclassified then .unclassified else .spurious f.primary) := by
  unfold MatchResult.unmatched
  cases f.isUnclassified <;> rfl

/-- What a run made is counted. -/
theorem exists_contributions (h : ∀ r ∈ rs, Shaped r) : ∃ cs, rs.mapM Contribution.ofResult = .ok cs := by
  refine exists_mapM fun r hr => ?_
  cases h r hr with
  | matched f d x => exact ⟨_, ofResult_matched f d x⟩
  | missed d => exact ⟨_, ofResult_missed d⟩
  | unmatched f => exact ⟨_, ofResult_unmatched f⟩

end Metrics

end Assay
