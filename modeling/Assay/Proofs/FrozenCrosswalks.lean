import Assay.Crosswalk
import Assay.Proofs.Confidences
import Assay.Proofs.LoadedCorpus

/-!
# Frozen crosswalks

A row of a crosswalk was checked when it was registered: its category is canonical and its confidence lies between
zero and one. So whatever a builder is frozen to answers every rule with at least one classification, and with
confidences that are numbers (`IsFrozen.resolve`).
-/

namespace Assay

namespace Crosswalk

/-- What comes of a new builder by registering rows and freezing. -/
inductive Builder.Reached : Builder → Prop where
  | start {version : Value} {b : Builder} : Builder.start version = .ok b → Reached b
  | register {b b' : Builder} {standard rule category confidence : Value} :
      Reached b → b.register standard rule category confidence = .ok b' → Reached b'
  | freeze {b : Builder} : Reached b → Reached b.freeze

/-- A crosswalk that a builder was frozen to. -/
def IsFrozen (x : Crosswalk) : Prop := ∃ b, Builder.Reached b ∧ b.frozen = some x

namespace Builder

theorem range_of_confidenceOf {k : RuleKey} {v : Value} {x : Float} (h : confidenceOf k v = .ok x) :
    0 ≤ x ∧ x ≤ 1 := by
  unfold confidenceOf at h
  extract_lets isTruthValue at h
  split at h
  · cases h
  · obtain ⟨_, -, h⟩ := bind_eq_ok.1 h
    cases h
  next y _ =>
    split at h
    next hrange =>
      cases h
      simp only [Bool.and_eq_true, decide_eq_true_iff] at hrange
      exact ⟨hrange.1.2, hrange.2⟩
    · obtain ⟨_, -, h⟩ := bind_eq_ok.1 h
      cases h

/-- A row has a canonical category and a confidence from zero to one. -/
theorem range_of_rowOf {standard rule category confidence : Value} {r : CrosswalkRow}
    (h : rowOf standard rule category confidence = .ok r) :
    r.category.isCanonical = true ∧ 0 ≤ r.confidence ∧ r.confidence ≤ 1 := by
  obtain ⟨k, -, h⟩ := bind_eq_ok.1 h
  split at h
  · cases h
  obtain ⟨c, hc, h⟩ := bind_eq_ok.1 h
  cases c with
  | none =>
    obtain ⟨_, -, h⟩ := bind_eq_ok.1 h
    cases h
  | some c =>
    obtain ⟨x, hx, h⟩ := bind_eq_ok.1 h
    cases h
    exact ⟨ Annotation.isCanonical_of_read (mapError_eq_ok.1 hc), range_of_confidenceOf hx⟩

/-- A row has a canonical category and a number as confidence. -/
theorem classification_of_rowOf {standard rule category confidence : Value} {r : CrosswalkRow}
    (h : rowOf standard rule category confidence = .ok r) :
    r.classification.category.isCanonical = true ∧ r.classification.IsNumber := by
  obtain ⟨hcategory, hlow, -⟩ := range_of_rowOf h
  exact ⟨hcategory, Binary64.isNaN_of_nonneg hlow⟩

theorem mem_insertRow {r s : CrosswalkRow} {rows : List CrosswalkRow} (h : s ∈ insertRow r rows) :
    s = r ∨ s ∈ rows := by
  induction rows with
  | nil => exact .inl (List.mem_singleton.1 h)
  | cons old rest ih =>
    unfold insertRow at h
    split at h
    · rcases List.mem_cons.1 h with rfl | h
      · split <;> simp
      · exact .inr (List.mem_cons_of_mem _ h)
    · rcases List.mem_cons.1 h with rfl | h
      · exact .inr (List.mem_cons_self ..)
      · exact (ih h).imp_right (List.mem_cons_of_mem _)

theorem mem_rows_snapshot {b : Builder} {r : CrosswalkRow} : r ∈ b.snapshot.rows ↔ r ∈ b.rows :=
  List.mem_mergeSort

theorem empty_of_start {version : Value} {b : Builder} (h : Builder.start version = .ok b) :
    b.rows = [] ∧ b.frozen = none := by
  unfold Builder.start at h
  split at h
  · cases h
  · split at h
    · cases h
    · cases h
      exact ⟨rfl, rfl⟩

theorem register_eq_ok {b b' : Builder} {standard rule category confidence : Value} :
    b.register standard rule category confidence = .ok b' ↔
      b.frozen = none ∧ ∃ r, rowOf standard rule category confidence = .ok r ∧
        b' = { b with rows := insertRow r b.rows } := by
  unfold register
  cases hf : b.frozen with
  | some x => simp [bind, Except.bind, throw, throwThe, MonadExceptOf.throw]
  | none =>
    refine ⟨fun h => ?_, ?_⟩
    · obtain ⟨r, hr, h⟩ := bind_eq_ok.1 h
      cases h
      exact ⟨rfl, r, hr, rfl⟩
    · rintro ⟨-, r, hr, rfl⟩
      exact bind_eq_ok.2 ⟨r, hr, rfl⟩

/-- A row of four values. -/
def IsRead (r : CrosswalkRow) : Prop :=
  ∃ standard rule category confidence, rowOf standard rule category confidence = .ok r

/-- Every row of a builder, and of the crosswalk that it was frozen to, was read from four values. -/
theorem Reached.isRead {b : Builder} (h : Reached b) :
    (∀ r ∈ b.rows, IsRead r) ∧ ∀ x, b.frozen = some x → ∀ r ∈ x.rows, IsRead r := by
  induction h with
  | @start version b hstart =>
    obtain ⟨hrows, hfrozen⟩ := empty_of_start hstart
    rw [hrows, hfrozen]
    exact ⟨fun r hr => absurd hr List.not_mem_nil, fun x hx => absurd hx (by simp)⟩
  | @register b b' standard rule category confidence _ hregister ih =>
    obtain ⟨-, r, hr, rfl⟩ := register_eq_ok.1 hregister
    refine ⟨fun s hs => ?_, ih.2⟩
    rcases mem_insertRow hs with rfl | hs
    · exact ⟨_, _, _, _, hr⟩
    · exact ih.1 s hs
  | @freeze b _ ih =>
    refine ⟨ih.1, fun x hx r hr => ?_⟩
    cases hf : b.frozen with
    | none =>
      have hx : b.snapshot = x := by simpa [Builder.freeze, table, hf] using hx
      exact ih.1 r (mem_rows_snapshot.1 (hx ▸ hr))
    | some y =>
      have hx : y = x := by simpa [Builder.freeze, table, hf] using hx
      exact ih.2 y hf r (hx ▸ hr)

end Builder

theorem IsFrozen.isRead {x : Crosswalk} (h : x.IsFrozen) : ∀ r ∈ x.rows, Builder.IsRead r := by
  obtain ⟨b, hb, hx⟩ := h
  exact hb.isRead.2 x hx

/-- A rule that is covered has the classifications of its rows. -/
theorem resolve_eq_of_covers {x : Crosswalk} {k : RuleKey} (hk : x.covers k = true) :
    x.resolve k = (x.rowsOf k).map CrosswalkRow.classification ∧ x.rowsOf k ≠ [] := by
  have hrows : x.rowsOf k ≠ [] := by
    obtain ⟨r, hr, hrk⟩ := List.any_eq_true.1 hk
    exact List.ne_nil_of_mem (List.mem_filter.2 ⟨hr, hrk⟩)
  refine ⟨?_, hrows⟩
  unfold Crosswalk.resolve
  split
  next hnil => exact absurd hnil hrows
  · rfl

/-- A rule that is covered has classifications, and all of them are canonical. -/
theorem IsFrozen.resolve_of_covers {x : Crosswalk} (h : x.IsFrozen) {k : RuleKey} (hk : x.covers k = true) :
    x.resolve k ≠ [] ∧ ∀ c ∈ x.resolve k, c.category.isCanonical = true ∧ c.IsNumber := by
  obtain ⟨hresolve, hrows⟩ := resolve_eq_of_covers hk
  rw [hresolve]
  refine ⟨fun e => hrows (List.map_eq_nil_iff.1 e), fun c hc => ?_⟩
  obtain ⟨r, hr, rfl⟩ := List.mem_map.1 hc
  obtain ⟨_, _, _, _, hread⟩ := h.isRead r (List.mem_filter.1 hr).1
  exact Builder.classification_of_rowOf hread

theorem resolve_of_not_covers {x : Crosswalk} {k : RuleKey} (hk : x.covers k = false) :
    x.resolve k = [.uncovered] := by
  have hrows : x.rowsOf k = [] := by
    rw [rowsOf, List.filter_eq_nil_iff]
    intro r hr hrk
    rw [covers, List.any_eq_false] at hk
    exact hk r hr hrk
  rw [resolve, hrows]

/-- A rule has at least one classification, and confidences are numbers. -/
theorem IsFrozen.resolve {x : Crosswalk} (h : x.IsFrozen) (k : RuleKey) :
    x.resolve k ≠ [] ∧ ∀ c ∈ x.resolve k, c.IsNumber := by
  have zero : (Binary64.parts 0).isNaN = false := by rw [Binary64.parts_zero]; rfl
  cases hk : x.covers k with
  | true =>
    obtain ⟨hne, hall⟩ := h.resolve_of_covers hk
    exact ⟨hne, fun c hc => (hall c hc).2⟩
  | false =>
    rw [resolve_of_not_covers hk]
    refine ⟨List.cons_ne_nil _ _, fun c hc => ?_⟩
    rw [List.mem_singleton.1 hc]
    exact zero

/-! ## A row that is registered -/

namespace Builder

theorem start_empty : Builder.start (.text "v1") = .ok ⟨"v1", [], none⟩ := by cbv

theorem rowOf_listed : rowOf (.text "generic") (.text "R1") (.text "other") (.float 1) =
    .ok ⟨⟨"generic", "R1"⟩, .other, 1⟩ := by
  have hkey : RuleKey.read (.text "generic") (.text "R1") = .ok ⟨"generic", "R1"⟩ := by cbv
  have hcategory : Category.read? false (.text "other") = .ok (some .other) := by cbv
  have hconfidence : confidenceOf ⟨"generic", "R1"⟩ (.float 1) = .ok 1 := eq_ok_of_toOption (by decide)
  simp only [rowOf, hkey, hcategory, hconfidence, bind, Except.bind, Except.mapError]
  rfl

end Builder

end Crosswalk

end Assay
