import Assay.Proofs.Decoding
import Assay.Proofs.FrozenCrosswalks
import Assay.Proofs.Ranking

/-!
# Registered rows

A crosswalk in the making is a keyed maximum: for each rule and category that was registered it holds one row,
the most confident one (`Crosswalk.Tops`), and one more row keeps that (`Tops.insertRow`). A table of such rows
answers with the most confident classifications of a rule (`Tops.isTableOf`), and depends on the registered rows and
not on their order (`IsTableOf.same_rows`).
-/

namespace Assay

/-! ## Rows and their places -/

namespace CrosswalkRow

/-- What a row is about: a rule and a category. -/
def slot (r : CrosswalkRow) : RuleKey × Category := (r.key, r.category)

/-- The place of a row in a table: standard, rule, name of the category. -/
def placeKey (r : CrosswalkRow) : (List ℕ ×ₗ String) ×ₗ (List ℕ ×ₗ String) ×ₗ (List ℕ ×ₗ String) :=
  toLex (Text.rankKey r.key.standard, toLex (Text.rankKey r.key.rule, Text.rankKey r.category.label))

/-- Equality of rows: confidences are equal as numbers. -/
def Same (a b : CrosswalkRow) : Prop := a.slot = b.slot ∧ (a.confidence == b.confidence) = true

/-- What every registered row has: a canonical category, and a confidence from zero to one. -/
structure IsSound (r : CrosswalkRow) : Prop where
  category : r.category.isCanonical = true
  low : 0 ≤ r.confidence
  high : r.confidence ≤ 1

section
variable {a b r : CrosswalkRow}

theorem before_iff : a.before b = true ↔ a.placeKey < b.placeKey := by
  simp [before, placeKey, Prod.Lex.toLex_lt_toLex, Text.before_iff, Text.rankKey_inj]

theorem not_before_iff : (!b.before a) = true ↔ a.placeKey ≤ b.placeKey := by
  rw [Bool.not_eq_true', ← Bool.not_eq_true, before_iff, not_lt]

theorem slot_of_placeKey (h : a.placeKey = b.placeKey) : a.slot = b.slot := by
  obtain ⟨hstandard, hrest⟩ := Prod.mk.inj (toLex_inj.1 h)
  obtain ⟨hrule, hlabel⟩ := Prod.mk.inj (toLex_inj.1 hrest)
  have hkey : a.key = b.key := by
    rw [RuleKey.mk.injEq]
    exact ⟨Text.rankKey_inj.1 hstandard, Text.rankKey_inj.1 hrule⟩
  exact Prod.ext hkey (Category.label_injective (Text.rankKey_inj.1 hlabel))

theorem placeKey_of_slot (h : a.slot = b.slot) : a.placeKey = b.placeKey := by
  obtain ⟨hkey, hcategory⟩ := Prod.mk.inj h
  rw [placeKey, placeKey, hkey, hcategory]

theorem sameSlot_iff : Crosswalk.Builder.sameSlot a b = true ↔ a.slot = b.slot := by
  simp [Crosswalk.Builder.sameSlot, slot]

theorem IsSound.isNumber (h : r.IsSound) : (Binary64.parts r.confidence).isNaN = false :=
  Binary64.isNaN_of_nonneg h.low

theorem IsSound.le_iff (ha : a.IsSound) (hb : b.IsSound) :
    a.confidence ≤ b.confidence ↔ Binary64.level a.confidence ≤ Binary64.level b.confidence :=
  Binary64.le_iff_level ha.isNumber hb.isNumber

end

end CrosswalkRow

namespace Crosswalk

open CrosswalkRow

/-! ## The most confident rows -/

/-- Some rows top others: for each rule and category of the others they hold exactly one row, which is among the
others and as confident as any of them. -/
structure Tops (rows given : List CrosswalkRow) : Prop where
  distinct : (rows.map slot).Nodup
  mem : ∀ x ∈ rows, x ∈ given
  above : ∀ r ∈ given, ∃ x ∈ rows, x.slot = r.slot ∧ r.confidence ≤ x.confidence

section
variable {rows rows' given given' : List CrosswalkRow} {r s x : CrosswalkRow}

theorem Tops.nil : Tops [] [] := ⟨List.nodup_nil, by simp, by simp⟩

/-- The row of a rule and category is unique. -/
theorem Tops.le (h : Tops rows given) (hx : x ∈ rows) (hr : r ∈ given) (hs : x.slot = r.slot) :
    r.confidence ≤ x.confidence := by
  obtain ⟨y, hy, hys, hle⟩ := h.above r hr
  obtain rfl : y = x := List.inj_on_of_nodup_map h.distinct hy hx (hys.trans hs.symm)
  exact hle

/-- A row goes where its rule and category are, or to the end. -/
theorem slots_insertRow (r : CrosswalkRow) (rows : List CrosswalkRow) :
    (Builder.insertRow r rows).map slot =
      if r.slot ∈ rows.map slot then rows.map slot else rows.map slot ++ [r.slot] := by
  induction rows with
  | nil => rfl
  | cons old rest ih =>
    unfold Builder.insertRow
    by_cases hold : Builder.sameSlot old r = true
    · have hslot : old.slot = r.slot := sameSlot_iff.1 hold
      rw [if_pos hold, List.map_cons, List.map_cons, hslot, if_pos List.mem_cons_self]
      congr 1
      split
      · exact hslot
      · rfl
    · have hslot : ¬ r.slot = old.slot := fun e => hold (sameSlot_iff.2 e.symm)
      rw [if_neg hold, List.map_cons, List.map_cons, ih]
      simp only [List.mem_cons, hslot, false_or]
      split <;> rfl

/-- What was held, and the row that is put in, are topped by what is held then. -/
theorem above_insertRow (hr : r.IsSound) (hrows : ∀ x ∈ rows, x.IsSound) (hs : s = r ∨ s ∈ rows) :
    ∃ x ∈ Builder.insertRow r rows, x.slot = s.slot ∧ s.confidence ≤ x.confidence := by
  have refl : ∀ {y : CrosswalkRow}, y.IsSound → y.confidence ≤ y.confidence := fun hy => (hy.le_iff hy).2 le_rfl
  induction rows with
  | nil =>
    obtain rfl : s = r := by simpa using hs
    exact ⟨s, List.mem_singleton_self s, rfl, refl hr⟩
  | cons old rest ih =>
    have hold : old.IsSound := hrows old List.mem_cons_self
    have hrest : ∀ x ∈ rest, x.IsSound := fun x hx => hrows x (List.mem_cons_of_mem old hx)
    unfold Builder.insertRow
    by_cases hsame : Builder.sameSlot old r = true
    · have hslot : old.slot = r.slot := sameSlot_iff.1 hsame
      rw [if_pos hsame]
      -- Whichever of the two rows stays is as confident as both.
      have htop : ∀ y, y = r ∨ y = old → ∃ x ∈ (if old.confidence ≥ r.confidence then old else r) :: rest,
          x.slot = y.slot ∧ y.confidence ≤ x.confidence := by
        intro y hy
        refine ⟨_, List.mem_cons_self, ?_⟩
        split
        next hge =>
          rcases hy with rfl | rfl
          · exact ⟨hslot, hge⟩
          · exact ⟨rfl, refl hold⟩
        next hlt =>
          rcases hy with rfl | rfl
          · exact ⟨rfl, refl hr⟩
          · refine ⟨hslot.symm, (hold.le_iff hr).2 (le_of_lt (not_le.1 fun hle => hlt ?_))⟩
            exact (hr.le_iff hold).2 hle
      rcases hs with rfl | hs
      · exact htop s (.inl rfl)
      · rcases List.mem_cons.1 hs with rfl | hs
        · exact htop s (.inr rfl)
        · exact ⟨s, List.mem_cons_of_mem _ hs, rfl, refl (hrest s hs)⟩
    · rw [if_neg hsame]
      by_cases hso : s = old
      · rw [hso]
        exact ⟨old, List.mem_cons_self, rfl, refl hold⟩
      · have hs : s = r ∨ s ∈ rest := hs.imp_right fun h => (List.mem_cons.1 h).resolve_left hso
        obtain ⟨x, hx, hxs⟩ := ih hrest hs
        exact ⟨x, List.mem_cons_of_mem old hx, hxs⟩

/-- **Keyed maximum.** One more row is topped too. -/
theorem Tops.insertRow (h : Tops rows given) (hgiven : ∀ x ∈ given, x.IsSound) (hr : r.IsSound) :
    Tops (Builder.insertRow r rows) (given ++ [r]) := by
  have hrows : ∀ x ∈ rows, x.IsSound := fun x hx => hgiven x (h.mem x hx)
  have hsound : ∀ s ∈ given ++ [r], s.IsSound := by
    intro s hs
    rcases List.mem_append.1 hs with hs | hs
    · exact hgiven s hs
    · exact List.mem_singleton.1 hs ▸ hr
  have hsub : ∀ x ∈ Builder.insertRow r rows, x ∈ given ++ [r] := by
    intro x hx
    rcases Builder.mem_insertRow hx with rfl | hx
    · simp
    · exact List.mem_append_left _ (h.mem x hx)
  refine ⟨?_, hsub, ?_⟩
  · rw [slots_insertRow]
    split
    · exact h.distinct
    next hnew =>
      refine List.nodup_append.2 ⟨h.distinct, List.nodup_singleton _, ?_⟩
      rintro a ha b hb rfl
      exact hnew (List.mem_singleton.1 hb ▸ ha)
  · intro s hs
    rcases List.mem_append.1 hs with hs | hs
    · -- What topped `s` before is topped now.
      obtain ⟨y, hy, hys, hle⟩ := h.above s hs
      obtain ⟨x, hx, hxy, hyx⟩ := above_insertRow hr hrows (.inr hy)
      have hxs := hsound x (hsub x hx)
      have hss := hgiven s hs
      refine ⟨x, hx, hxy.trans hys, (hss.le_iff hxs).2 ?_⟩
      exact ((hss.le_iff (hrows y hy)).1 hle).trans (((hrows y hy).le_iff hxs).1 hyx)
    · obtain rfl := List.mem_singleton.1 hs
      exact above_insertRow hr hrows (.inl rfl)

end

/-! ## Answers of tables -/

/-- A row is among some rows, and as confident as any of them of the same rule and category. -/
structure IsTop (given : List CrosswalkRow) (x : CrosswalkRow) : Prop where
  mem : x ∈ given
  greatest : ∀ r ∈ given, r.slot = x.slot → r.confidence ≤ x.confidence

/-- The answer to a rule when some rows were registered: one classification for each category that the rows of the
rule have, the most confident one, or that there is no row. -/
structure Answers (given : List CrosswalkRow) (k : RuleKey) (answer : List Classification) : Prop where
  uncovered : answer = [.uncovered] ↔ ∀ r ∈ given, r.key ≠ k
  distinct : (answer.map Classification.category).Nodup
  complete : ∀ r ∈ given, r.key = k → ∃ a ∈ answer, a.category = r.category
  top : (∃ r ∈ given, r.key = k) → ∀ a ∈ answer,
    a.category.isCanonical = true ∧ 0 ≤ a.confidence ∧ a.confidence ≤ 1 ∧
      ∃ x, IsTop given x ∧ x.key = k ∧ x.classification = a

/-- A table of some rows: it holds the most confident row of each rule and category, in strict order, and answers
with them. -/
structure IsTableOf (x : Crosswalk) (given : List CrosswalkRow) : Prop where
  tops : Tops x.rows given
  sorted : x.rows.Pairwise (·.before · = true)
  covers : ∀ k, x.covers k = true ↔ ∃ r ∈ given, r.key = k
  answers : ∀ k, Answers given k (x.resolve k)

/-- Equality of tables: confidences are equal as numbers. -/
structure Same (x y : Crosswalk) : Prop where
  version : x.version = y.version
  rows : List.Forall₂ CrosswalkRow.Same x.rows y.rows

section
variable {x y : Crosswalk} {rows rows' given given' : List CrosswalkRow} {k : RuleKey}

theorem Tops.perm (h : Tops rows given) (hperm : rows.Perm rows') : Tops rows' given where
  distinct := (hperm.map slot).nodup_iff.1 h.distinct
  mem a ha := h.mem a (hperm.mem_iff.2 ha)
  above r hr := by
    obtain ⟨a, ha, hle⟩ := h.above r hr
    exact ⟨a, hperm.mem_iff.1 ha, hle⟩

theorem Tops.covers_iff (h : Tops x.rows given) : x.covers k = true ↔ ∃ r ∈ given, r.key = k := by
  simp only [covers, List.any_eq_true, beq_iff_eq]
  constructor
  · rintro ⟨a, ha, hk⟩
    exact ⟨a, h.mem a ha, hk⟩
  · rintro ⟨r, hr, hk⟩
    obtain ⟨a, ha, hslot, -⟩ := h.above r hr
    exact ⟨a, ha, (congrArg Prod.fst hslot).trans hk⟩

theorem Tops.answers (h : Tops x.rows given) (hsound : ∀ r ∈ given, r.IsSound) (k : RuleKey) :
    Answers given k (x.resolve k) := by
  cases hk : x.covers k with
  | false =>
    have hnone : ¬ ∃ r ∈ given, r.key = k := fun hex => by simpa [hk] using h.covers_iff.2 hex
    rw [resolve_of_not_covers hk]
    refine ⟨⟨fun _ r hr hrk => hnone ⟨r, hr, hrk⟩, fun _ => rfl⟩, List.nodup_singleton _, ?_, fun hex => absurd hex hnone⟩
    exact fun r hr hrk => absurd ⟨r, hr, hrk⟩ hnone
  | true =>
    obtain ⟨hresolve, hne⟩ := resolve_eq_of_covers hk
    have hrow : ∀ a ∈ x.rowsOf k, a ∈ x.rows ∧ a.key = k := by
      intro a ha
      obtain ⟨hmem, hkey⟩ := List.mem_filter.1 ha
      exact ⟨hmem, beq_iff_eq.1 hkey⟩
    have hcanonical : ∀ a ∈ x.rowsOf k, a.category.isCanonical = true :=
      fun a ha => (hsound a (h.mem a (hrow a ha).1)).category
    rw [hresolve]
    refine ⟨⟨fun huncovered => ?_, fun hnone => ?_⟩, ?_, ?_, ?_⟩
    · -- A registered category is canonical, and `unknown` is not.
      obtain ⟨a, ha⟩ := List.exists_mem_of_ne_nil _ hne
      have hclass : a.classification = .uncovered := by
        have hmem := List.mem_map_of_mem (f := CrosswalkRow.classification) ha
        rw [huncovered] at hmem
        exact List.mem_singleton.1 hmem
      have hcategory : a.category = .unknown := congrArg Classification.category hclass
      have hknown := hcanonical a ha
      rw [hcategory] at hknown
      cases hknown
    · obtain ⟨r, hr, hrk⟩ := h.covers_iff.1 hk
      exact absurd hrk (hnone r hr)
    · rw [List.map_map]
      refine List.Nodup.map_on ?_ ((List.Nodup.of_map slot h.distinct).filter _)
      intro a ha b hb hab
      have hslot : a.slot = b.slot := Prod.ext ((hrow a ha).2.trans (hrow b hb).2.symm) hab
      exact List.inj_on_of_nodup_map h.distinct (hrow a ha).1 (hrow b hb).1 hslot
    · intro r hr hrk
      obtain ⟨a, ha, hslot, -⟩ := h.above r hr
      obtain ⟨hkey, hcategory⟩ := Prod.mk.inj hslot
      have hmem : a ∈ x.rowsOf k := List.mem_filter.2 ⟨ha, beq_iff_eq.2 (hkey.trans hrk)⟩
      exact ⟨a.classification, List.mem_map_of_mem hmem, hcategory⟩
    · intro _ c hc
      obtain ⟨a, ha, rfl⟩ := List.mem_map.1 hc
      have hgiven : a ∈ given := h.mem a (hrow a ha).1
      have ha' := hsound a hgiven
      refine ⟨ha'.category, ha'.low, ha'.high, a, ⟨hgiven, fun r hr hslot => ?_⟩, (hrow a ha).2, rfl⟩
      exact h.le (hrow a ha).1 hr hslot.symm

/-- Sorting the most confident rows of some rows makes a table of them. -/
theorem Tops.isTableOf (h : Tops rows given) (hsound : ∀ r ∈ given, r.IsSound) (version : String) :
    IsTableOf ⟨version, rows.mergeSort fun r s => !CrosswalkRow.before s r⟩ given := by
  have hsorted : Tops (rows.mergeSort fun r s => !CrosswalkRow.before s r) given :=
    h.perm (List.mergeSort_perm _ _).symm
  refine ⟨hsorted, ?_, fun k => hsorted.covers_iff, hsorted.answers hsound⟩
  have hstrict := Ranking.strict placeKey slot (fun _ _ => not_before_iff) (fun _ _ => slot_of_placeKey) h.distinct
  exact hstrict.imp fun hab => before_iff.2 hab

/-- Tables of the same rows, in whatever order these were registered, hold equal rows at equal places. -/
theorem IsTableOf.same_rows (hx : x.IsTableOf given) (hy : y.IsTableOf given') (hperm : given.Perm given')
    (hsound : ∀ r ∈ given, r.IsSound) : List.Forall₂ CrosswalkRow.Same x.rows y.rows := by
  have ascends : ∀ {z : Crosswalk}, z.rows.Pairwise (·.before · = true) → (z.rows.map placeKey).Pairwise (· < ·) :=
    fun hz => List.pairwise_map.2 (hz.imp fun hab => before_iff.1 hab)
  have hmem : ∀ {z w : Crosswalk} {gz gw : List CrosswalkRow}, Tops z.rows gz → Tops w.rows gw →
      (∀ r ∈ gz, r ∈ gw) → ∀ p ∈ z.rows.map placeKey, p ∈ w.rows.map placeKey := by
    intro z w gz gw hz hw hsub p hp
    obtain ⟨a, ha, rfl⟩ := List.mem_map.1 hp
    obtain ⟨b, hb, hslot, -⟩ := hw.above a (hsub a (hz.mem a ha))
    exact List.mem_map.2 ⟨b, hb, placeKey_of_slot hslot⟩
  have hplaces : x.rows.map placeKey = y.rows.map placeKey := by
    refine List.Perm.eq_of_pairwise (fun a b _ _ hab hba => absurd hba hab.asymm) (ascends hx.sorted)
      (ascends hy.sorted) ?_
    refine (List.perm_ext_iff_of_nodup (ascends hx.sorted).nodup (ascends hy.sorted).nodup).2 fun p => ⟨?_, ?_⟩
    · exact hmem hx.tops hy.tops (fun r hr => hperm.mem_iff.1 hr) p
    · exact hmem hy.tops hx.tops (fun r hr => hperm.mem_iff.2 hr) p
  obtain ⟨hlength, hzip⟩ := List.forall₂_iff_zip.1
    (List.forall₂_map_left_iff.1 (List.forall₂_map_right_iff.1 (List.forall₂_eq_eq_eq ▸ hplaces)))
  refine List.forall₂_iff_zip.2 ⟨hlength, fun {a b} hab => ?_⟩
  have hslot : a.slot = b.slot := slot_of_placeKey (hzip hab)
  obtain ⟨ha, hb⟩ := List.of_mem_zip hab
  have ha' : a ∈ given := hx.tops.mem a ha
  have hb' : b ∈ given := hperm.mem_iff.2 (hy.tops.mem b hb)
  have hle : a.confidence ≤ b.confidence := hy.tops.le hb (hperm.mem_iff.1 ha') hslot.symm
  have hge : b.confidence ≤ a.confidence := hx.tops.le ha hb' hslot
  refine ⟨hslot, (Binary64.beq_iff_level (hsound a ha').isNumber (hsound b hb').isNumber).2 (le_antisymm ?_ ?_)⟩
  · exact ((hsound a ha').le_iff (hsound b hb')).1 hle
  · exact ((hsound b hb').le_iff (hsound a ha')).1 hge

end

end Crosswalk

end Assay
