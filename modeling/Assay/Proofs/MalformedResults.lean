import Assay.Proofs.Decoding
import Assay.Proofs.Results
import Assay.Proofs.Tallies

/-!
# Malformed results

A result of an unknown kind, or without a part that its kind needs, is refused when it is read back from its document,
and everything else is read (`MatchResult.refuses_ofValue_iff`). The metrics refuse less: of a match they ask for the
defect only, and of an unclassified finding they ask for nothing. So results are refused when they are counted exactly
if one of them is refused when it is read back and lacks more than the finding of such a kind
(`Metrics.refuses_ofResults_iff`).
-/

namespace Assay

/-! ## Computations that refuse -/

/-- A computation ends in a fault for which a value is to blame. -/
def Refuses {α : Type} (x : Except Fault α) : Prop := ∃ f, x = .error f ∧ f.isOfValue = true

section
variable {α β : Type} {x : Except Fault α} {f : α → Except Fault β} {l : List α}

theorem refuses_rejected (r : Rejection) : Refuses (.error (.rejected r) : Except Fault α) := ⟨_, rfl, rfl⟩

theorem not_refuses_of_eq_ok {a : α} (h : x = .ok a) : ¬ Refuses x := by
  rintro ⟨f, hf, -⟩
  cases h.symm.trans hf

theorem refuses_bind (h : Refuses x) : Refuses (x >>= f) := by
  obtain ⟨e, he, hvalue⟩ := h
  exact ⟨e, bind_eq_error.2 (.inl he), hvalue⟩

theorem refuses_bind_of_eq_ok {a : α} (h : x = .ok a) (hf : Refuses (f a)) : Refuses (x >>= f) := by
  obtain ⟨e, he, hvalue⟩ := hf
  exact ⟨e, bind_eq_error.2 (.inr ⟨a, h, he⟩), hvalue⟩

/-- Of computations that return or refuse, a list refuses if one of them does. -/
theorem refuses_mapM (h : ∀ a, Refuses (f a) ∨ ∃ b, f a = .ok b) {a : α} (ha : a ∈ l) (hf : Refuses (f a)) :
    Refuses (l.mapM f) := by
  induction l with
  | nil => cases ha
  | cons c l ih =>
    rw [List.mapM_cons]
    rcases h c with hc | ⟨b, hb⟩
    · exact refuses_bind hc
    · have hal : a ∈ l := (List.mem_cons.1 ha).resolve_left fun e => not_refuses_of_eq_ok hb (e ▸ hf)
      exact refuses_bind_of_eq_ok hb (refuses_bind (ih hal))

end

/-! ## Reading back -/

section
variable {v : Value}

theorem Classification.exists_ofValue {c : Classification} (h : v.Reordered c.toValue) :
    v.isMap = true ∧ ∃ c', ofValue v = .ok c' := by
  obtain ⟨hmap, hfields⟩ := h.fields (by simp)
  simp only [List.forall_mem_cons, Value.reordered_text, Value.reordered_float] at hfields
  obtain ⟨category, confidence, -⟩ := hfields
  refine ⟨hmap, ?_⟩
  simp only [ofValue, Value.requireFields, hmap, category, confidence, if_true, bind, Except.bind, pure, Except.pure]
  split <;> exact ⟨_, rfl⟩

theorem Finding.exists_ofValue {f : Finding} (h : v.Reordered f.toValue) :
    v.isMap = true ∧ ∃ f', ofValue v = .ok f' := by
  obtain ⟨hmap, hfields⟩ := h.fields (by simp)
  simp only [List.forall_mem_cons, Value.reordered_text, Value.reordered_ofOption_int, Value.reordered_int,
    Value.reordered_bool] at hfields
  obtain ⟨-, index, file, line, severity, categories, coarse, raw, -⟩ := hfields
  obtain ⟨vs, cs, hitems, hdecode, -⟩ := decode_list (S := fun _ _ => True) categories fun c _ w hw =>
    (Classification.exists_ofValue hw).imp_right fun h => h.imp fun _ hc => ⟨hc, trivial⟩
  have hraw := raw.fieldsOrEmpty (by simp) (by simp)
  refine ⟨hmap, ?_⟩
  simp [ofValue, Value.requireFields, hmap, index, line, severity, hitems, hdecode, hraw,
    ToolFinding.ofValue_reordered raw, Severity.ofValueOrMedium_label, bind, Except.bind, pure, Except.pure]

theorem Location.exists_ofValue {l : Location} (h : v.Reordered l.toValue) : ∃ l', ofValue v = .ok l' := by
  obtain ⟨hmap, hfields⟩ := h.fields (by simp)
  simp only [List.forall_mem_cons, Value.reordered_text, Value.reordered_int, Value.reordered_ofOption_int] at hfields
  obtain ⟨file, lineStart, lineEnd, column, -⟩ := hfields
  have hend : ∃ n, ((v.get "line_end").orElse (.int l.lineStart)).intOrZero = .ok n := by
    rw [lineEnd, Value.orElse]
    split <;> exact ⟨_, Value.intOrZero_int _⟩
  obtain ⟨n, hn⟩ := hend
  simp only [ofValue, Value.requireFields, hmap, lineStart, hn, column, if_true, Value.intOrZero_int, bind, Except.bind,
    pure, Except.pure]
  cases l.column <;> exact ⟨_, rfl⟩

theorem Defect.exists_ofValue {g : Defect} (h : v.Reordered g.toValue) :
    v.isMap = true ∧ ∃ g', ofValue v = .ok g' := by
  obtain ⟨hmap, hfields⟩ := h.fields (by simp)
  simp only [List.forall_mem_cons, Value.reordered_text, Value.reordered_bool] at hfields
  obtain ⟨id, sampleId, category, location, severity, rules, note, conditional, duplicate, -⟩ := hfields
  obtain ⟨vs, rs, hitems, hdecode, -⟩ := decode_list rules fun r _ w hw => RuleRef.ofValue_reordered hw
  obtain ⟨l, hl⟩ := Location.exists_ofValue location
  have hlocation := location.fieldsOrEmpty (by simp) (by simp)
  refine ⟨hmap, ?_⟩
  simp [ofValue, Value.requireFields, hmap, severity, hitems, hdecode, hlocation, hl, Severity.ofValueOrMedium_label,
    bind, Except.bind, pure, Except.pure]

end

namespace MatchResult

/-- A finding is all that a result of a match, or of a finding of no known category, is short of. -/
def LacksFinding (r : MatchResult) : Prop :=
  r.finding = none ∧ (MatchKind.ofLabel? r.kind = some .matched ∧ r.defect.isSome = true ∨
    MatchKind.ofLabel? r.kind = some .unclassified)

section
variable {r : MatchResult} {k : MatchKind} {v : Value}

theorem isWellFormed_iff (hk : MatchKind.ofLabel? r.kind = some k) : r.IsWellFormed ↔
    (k.needsDefect = true → r.defect.isSome = true) ∧ (k.needsFinding = true → r.finding.isSome = true) := by
  simp [IsWellFormed, hk]

theorem not_isWellFormed (hk : MatchKind.ofLabel? r.kind = none) : ¬ r.IsWellFormed := by
  simp [IsWellFormed, hk]

theorem lacks_iff {needs there : Bool} : (needs && !there) = true ↔ ¬ (needs = true → there = true) := by
  cases needs <;> cases there <;> decide

theorem not_lacks {needs there : Bool} (h : needs = true → there = true) : (needs && !there) = false :=
  Bool.eq_false_iff.2 fun hlacks => lacks_iff.1 hlacks h

/-- A part of a result is a mapping in its document if it is there, and then it is read. -/
theorem isMap_part {α β : Type} {toValue : β → Value} {ofValue : Value → Except Fault α} {part : Option β}
    (h : v.Reordered (.ofOption toValue part))
    (each : ∀ b, v.Reordered (toValue b) → v.isMap = true ∧ ∃ a, ofValue v = .ok a) :
    v.isMap = part.isSome ∧ (v.isMap = false ∨ v.isMap = true ∧ ∃ a, ofValue v = .ok a) := by
  cases part with
  | none =>
    rw [h.eq_of_isScalar trivial]
    exact ⟨rfl, .inl rfl⟩
  | some b => exact ⟨(each b h).1, .inr (each b h)⟩

/-- Reading back looks at the kind and at the parts that it needs; what is there is read, whatever the order of the
entries is. -/
theorem ofValue_reordered_cases (h : v.Reordered r.toValue) :
    (r.IsWellFormed ∧ ∃ r', ofValue v = .ok r') ∨ (¬ r.IsWellFormed ∧ Refuses (ofValue v)) := by
  obtain ⟨hmap, hfields⟩ := h.fields (by simp)
  simp only [List.forall_mem_cons, Value.reordered_text, Value.reordered_ofOption_float] at hfields
  obtain ⟨kind, finding, defect, score, -⟩ := hfields
  obtain ⟨hfinding, hf⟩ := isMap_part finding fun _ => Finding.exists_ofValue
  obtain ⟨hdefect, hg⟩ := isMap_part defect fun _ => Defect.exists_ofValue
  cases hk : MatchKind.ofLabel? r.kind with
  | none =>
    refine .inr ⟨not_isWellFormed hk, .rejected (.unknownMatchKind r.kind), ?_, rfl⟩
    simp only [ofValue, Value.requireFields, hmap, kind, Value.textOrEmpty_text, hk, if_true, bind, Except.bind]
    rfl
  | some k =>
    rw [isWellFormed_iff hk, ← hdefect, ← hfinding]
    by_cases hneedsDefect : k.needsDefect = true → (v.get "ground_truth").isMap = true
    case neg =>
      refine .inr ⟨fun h => hneedsDefect h.1, .rejected (.missingPart r.kind "ground_truth"), ?_, rfl⟩
      simp only [ofValue, Value.requireFields, hmap, kind, Value.textOrEmpty_text, hk, lacks_iff.2 hneedsDefect,
        if_true, bind, Except.bind]
      rfl
    by_cases hneedsFinding : k.needsFinding = true → (v.get "finding").isMap = true
    case neg =>
      refine .inr ⟨fun h => hneedsFinding h.2, .rejected (.missingPart r.kind "finding"), ?_, rfl⟩
      simp only [ofValue, Value.requireFields, hmap, kind, Value.textOrEmpty_text, hk, not_lacks hneedsDefect,
        lacks_iff.2 hneedsFinding, if_true, Bool.false_eq_true, if_false, bind, Except.bind]
      rfl
    refine .inl ⟨⟨hneedsDefect, hneedsFinding⟩, ?_⟩
    simp only [ofValue, Value.requireFields, hmap, kind, Value.textOrEmpty_text, hk, not_lacks hneedsDefect,
      not_lacks hneedsFinding, score, if_true, Bool.false_eq_true, if_false, bind, Except.bind, pure, Except.pure]
    clear hfinding hdefect
    -- What is left reads the parts that are there.
    rcases hf with hf | ⟨hf, f, hread⟩ <;> rcases hg with hg | ⟨hg, g, hgread⟩ <;> cases r.score <;>
      simp only [*, if_true, Bool.false_eq_true, if_false, Except.map] <;> exact ⟨_, rfl⟩

/-- **Reading back.** A result is refused exactly if its kind is unknown or a part that its kind needs is missing. -/
theorem refuses_ofValue_iff (h : v.Reordered r.toValue) : Refuses (ofValue v) ↔ ¬ r.IsWellFormed := by
  rcases ofValue_reordered_cases h with ⟨hwell, r', hr'⟩ | ⟨hnot, hrefuses⟩
  · exact iff_of_false (not_refuses_of_eq_ok hr') (not_not_intro hwell)
  · exact iff_of_true hrefuses hnot

end

end MatchResult

/-! ## Counting -/

/-- A result is counted if it is well-formed, and also if it lacks a finding only. -/
theorem Contribution.ofResult_cases (r : MatchResult) :
    ((r.IsWellFormed ∨ r.LacksFinding) ∧ ∃ x, ofResult r = .ok x) ∨
      (¬ r.IsWellFormed ∧ ¬ r.LacksFinding ∧ Refuses (ofResult r)) := by
  cases hk : MatchKind.ofLabel? r.kind with
  | none =>
    refine .inr ⟨MatchResult.not_isWellFormed hk, by simp [MatchResult.LacksFinding, hk], ?_⟩
    rw [ofResult, hk]
    exact refuses_rejected _
  | some k =>
    rw [MatchResult.isWellFormed_iff hk, MatchResult.LacksFinding, hk, ofResult, hk]
    cases k with
    | matched =>
      cases hd : r.defect with
      | some d => cases hf : r.finding <;> simp [MatchKind.needsDefect, MatchKind.needsFinding]
      | none => exact .inr ⟨by simp [MatchKind.needsDefect], by simp, refuses_rejected _⟩
    | falseNegative =>
      cases hd : r.defect with
      | some d => simp [MatchKind.needsDefect, MatchKind.needsFinding]
      | none => exact .inr ⟨by simp [MatchKind.needsDefect], by simp, refuses_rejected _⟩
    | falsePositive =>
      cases hf : r.finding with
      | some f => simp [MatchKind.needsDefect, MatchKind.needsFinding]
      | none => exact .inr ⟨by simp [MatchKind.needsFinding], by simp, refuses_rejected _⟩
    | unclassified => cases hf : r.finding <;> simp [MatchKind.needsDefect, MatchKind.needsFinding]

namespace Metrics

/-- **Malformed results.** Results are counted or refused; they are refused exactly if one of them is refused when it
is read back, unless all that it lacks is the finding of a match or of a finding of no known category. -/
theorem refuses_ofResults_iff (rs : List MatchResult) :
    ((∃ m, ofResults rs = .ok m) ∨ Refuses (ofResults rs)) ∧
    (Refuses (ofResults rs) ↔ ∃ r ∈ rs, Refuses (MatchResult.ofValue r.toValue) ∧ ¬ r.LacksFinding) := by
  have hcases : ∀ r, Refuses (Contribution.ofResult r) ∨ ∃ x, Contribution.ofResult r = .ok x := fun r =>
    (Contribution.ofResult_cases r).symm.imp (·.2.2) (·.2)
  have hone : ∀ r, Refuses (Contribution.ofResult r) ↔
      Refuses (MatchResult.ofValue r.toValue) ∧ ¬ r.LacksFinding := by
    intro r
    rw [MatchResult.refuses_ofValue_iff (.refl _), ← not_or]
    rcases Contribution.ofResult_cases r with ⟨hcounted, x, hx⟩ | ⟨hnot, hlacks, hrefuses⟩
    · exact iff_of_false (not_refuses_of_eq_ok hx) (not_not_intro hcounted)
    · exact iff_of_true hrefuses (not_or_intro hnot hlacks)
  by_cases hany : ∃ r ∈ rs, Refuses (MatchResult.ofValue r.toValue) ∧ ¬ r.LacksFinding
  · obtain ⟨r, hr, hrefused⟩ := hany
    have h : Refuses (ofResults rs) := refuses_bind (refuses_mapM hcases hr ((hone r).2 hrefused))
    exact ⟨.inr h, iff_of_true h ⟨r, hr, hrefused⟩⟩
  · obtain ⟨cs, hcs⟩ := exists_mapM fun r hr => (hcases r).resolve_left fun h => hany ⟨r, hr, (hone r).1 h⟩
    have h : ofResults rs = .ok (ofContributions cs) := by rw [ofResults, hcs]; rfl
    exact ⟨.inl ⟨_, h⟩, iff_of_false (not_refuses_of_eq_ok h) hany⟩

/-- A match that lost its finding. -/
def matchWithoutFinding : MatchResult := ⟨MatchKind.matched.label, none, some Matching.loneDefect, none⟩

/-- A finding of no known category that is not there. -/
def unclassifiedWithoutFinding : MatchResult := ⟨MatchKind.unclassified.label, none, none, none⟩

/-- Both are counted, and both are refused when they are read back. -/
theorem ofResults_without_finding :
    (¬ Refuses (ofResults [matchWithoutFinding]) ∧ Refuses (MatchResult.ofValue matchWithoutFinding.toValue)) ∧
      ¬ Refuses (ofResults [unclassifiedWithoutFinding]) ∧
        Refuses (MatchResult.ofValue unclassifiedWithoutFinding.toValue) := by
  refine ⟨⟨not_refuses_of_eq_ok rfl, .rejected (.missingPart "matched" "finding"), rfl, rfl⟩,
    not_refuses_of_eq_ok rfl, .rejected (.missingPart "unclassified" "finding"), rfl, rfl⟩

end Metrics

end Assay
