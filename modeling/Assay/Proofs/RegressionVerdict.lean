import Assay.Proofs.BlockComparison
import Assay.Proofs.BuiltReports
import Assay.Proofs.Tallies

/-!
# The regression verdict

A comparison of two reports whose metrics count their results is neither a false alarm nor blind
(`Comparison.verdict`): a category whose exact recall did not fall has not regressed, one whose exact recall fell
by two ten-thousandths more than the threshold has, and so has one that lost all its matches. The categories
listed are those of either report. Recalls are rounded twice and their difference once more, but the errors of
all roundings together are less than what the two ten-thousandths leave.
-/

namespace Assay

/-! ## Exact rates -/

theorem ratio_mem {n d : ℕ} (h : n ≤ d) : 0 ≤ ratio n d ∧ ratio n d ≤ 1 := by
  rw [ratio]
  split
  · exact ⟨le_rfl, zero_le_one⟩
  next hd =>
    have hd' : (0 : ℚ) < d := by exact_mod_cast Nat.pos_of_ne_zero (by exact_mod_cast hd)
    have hcast : (n : ℚ) ≤ d := by exact_mod_cast h
    rw [Int.cast_natCast, Int.cast_natCast]
    exact ⟨by positivity, (div_le_one hd').2 hcast⟩

theorem harmonic_mem {p r : ℚ} (hp : 0 ≤ p ∧ p ≤ 1) (hr : 0 ≤ r ∧ r ≤ 1) : 0 ≤ harmonic p r ∧ harmonic p r ≤ 1 := by
  rw [harmonic]
  split
  · exact ⟨le_rfl, zero_le_one⟩
  next hne =>
    obtain ⟨hp0, hp1⟩ := hp
    obtain ⟨hr0, hr1⟩ := hr
    have hpos : 0 < p + r := lt_of_le_of_ne (by linarith) (Ne.symm hne)
    refine ⟨by positivity, (div_le_one hpos).2 ?_⟩
    nlinarith

namespace Tally

/-- The number of results of a tally. -/
def total (t : Tally) : ℕ := t.matched + t.spurious + t.missed

section
variable {t : Tally} {ts : List Tally}

theorem precision_mem (t : Tally) : 0 ≤ t.precision ∧ t.precision ≤ 1 := ratio_mem (Nat.le_add_right _ _)

theorem recallRate_mem (t : Tally) : 0 ≤ t.recallRate ∧ t.recallRate ≤ 1 := ratio_mem (Nat.le_add_right _ _)

theorem f1_mem (t : Tally) : 0 ≤ t.f1 ∧ t.f1 ≤ 1 := harmonic_mem t.precision_mem t.recallRate_mem

/-- A recall that is not zero comes from matches. -/
theorem recallRate_eq_zero_iff : t.recallRate = 0 ↔ t.matched = 0 := by
  rw [recallRate, ratio]
  split
  next hd =>
    have hnone : t.matched + t.missed = 0 := by exact_mod_cast hd
    simp only [true_iff]
    omega
  next hd =>
    have hd' : ((t.defects : ℤ) : ℚ) ≠ 0 := by exact_mod_cast hd
    rw [div_eq_zero_iff, or_iff_left hd']
    norm_cast

theorem total_sum_le {α : Type} (f : α → Tally) (hf : ∀ a, (f a).total ≤ 1) (l : List α) :
    (sum (l.map f)).total ≤ l.length := by
  induction l with
  | nil => exact Nat.le_refl 0
  | cons a l ih =>
    have hadd : ((f a).add (sum (l.map f))).total = (f a).total + (sum (l.map f)).total := by
      simp only [total, add]
      omega
    rw [List.map_cons, sum_cons, hadd, List.length_cons]
    have := hf a
    omega

end

end Tally

/-! ## Metrics as reports show them -/

namespace Block

/-- The block of a tally of not too many results is ordinary. -/
theorem isOrdinary_ofTally {t : Tally} {n : ℕ} (ht : t.total ≤ n) (hn : n < 2 ^ 63) (b : Bool) :
    Delta.IsOrdinary (ofTally b t) := by
  have hparts : t.matched + t.spurious + t.missed ≤ n := ht
  refine ⟨?_, ?_, ?_, ?_, ?_, ?_⟩
  · show t.matched < 2 ^ 63
    omega
  · show t.spurious < 2 ^ 63
    omega
  · show t.missed < 2 ^ 63
    omega
  · exact Score.units_le t.precision_mem.1 t.precision_mem.2
  · intro s hs
    cases b with
    | false => cases hs
    | true =>
      cases hs
      exact Score.units_le t.recallRate_mem.1 t.recallRate_mem.2
  · cases b with
    | false => exact Nat.zero_le _
    | true => exact Score.units_le t.f1_mem.1 t.f1_mem.2

end Block

namespace Metrics

section
variable {cs : List Contribution} {c : Category} {b : Block}

/-- A result counts at most once in a category. -/
theorem total_tallyOf_le (cs : List Contribution) (c : Category) : (tallyOf cs c).total ≤ cs.length := by
  have hone : ∀ x : Contribution, (x.tallyFor c).total ≤ 1 := by
    intro x
    cases x with
    | unclassified => exact Nat.zero_le 1
    | _ =>
      rw [Contribution.tallyFor]
      split <;> decide
  rw [tallyOf_eq_sum]
  exact Tally.total_sum_le _ hone cs

/-- A result counts at most once overall. -/
theorem total_sum_present_le (cs : List Contribution) :
    (Tally.sum ((present cs).map (tallyOf cs))).total ≤ cs.length := by
  have hone : ∀ x : Contribution, x.tally.total ≤ 1 := by
    intro x
    cases x with
    | unclassified => exact Nat.zero_le 1
    | _ => exact Nat.le_refl 1
  rw [sum_tallyOf]
  exact Tally.total_sum_le _ hone cs

theorem isOrdinary_overall (h : cs.length < 2 ^ 63) : Delta.IsOrdinary (ofContributions cs).overall :=
  Block.isOrdinary_ofTally (total_sum_present_le cs) h true

theorem lookup_byCategory (cs : List Contribution) (c : Category) : (ofContributions cs).byCategory.lookup c =
    if c ∈ present cs then some (.ofTally (0 < (tallyOf cs c).defects) (tallyOf cs c)) else none :=
  lookup_map (fun c => Block.ofTally (0 < (tallyOf cs c).defects) (tallyOf cs c)) c (present cs)

theorem mem_byCategory : c ∈ (ofContributions cs).byCategory.map (·.1) ↔ c ∈ present cs := by
  simp [ofContributions, Function.comp_def]

theorem isOrdinary_of_lookup (h : cs.length < 2 ^ 63) (hb : b ∈ (ofContributions cs).byCategory.lookup c) :
    Delta.IsOrdinary b := by
  rw [lookup_byCategory] at hb
  split at hb
  · cases hb
    exact Block.isOrdinary_ofTally (total_tallyOf_le cs c) h _
  · cases hb

/-- The matches of a category, listed or not. -/
theorem matchesOf_lookup (cs : List Contribution) (c : Category) :
    Delta.matchesOf ((ofContributions cs).byCategory.lookup c) = ((ofContributions cs).tallyAt c).matched := by
  rw [Delta.matchesOf, tallyAt]
  cases (ofContributions cs).byCategory.lookup c <;> rfl

/-- The recall of a category is the score of its exact recall, if it has known defects. -/
theorem recallOf_lookup (cs : List Contribution) (c : Category) :
    Delta.recallOf ((ofContributions cs).byCategory.lookup c) =
      if 0 < ((ofContributions cs).tallyAt c).defects then some (.ofRat ((ofContributions cs).tallyAt c).recallRate)
      else none := by
  rw [Delta.recallOf, tallyAt_ofContributions, lookup_byCategory]
  by_cases hc : c ∈ present cs
  · rw [if_pos hc]
    by_cases hd : 0 < (tallyOf cs c).defects
    · simp [Block.ofTally, hd]
    · simp [Block.ofTally, hd]
  · have hzero : tallyOf cs c = .zero := by
      simpa [present, Category.mem_all] using hc
    rw [if_neg hc, hzero]
    rfl

end

end Metrics

/-! ## Settings -/

/-- Settings are the same as themselves, whatever double the discount is. -/
theorem MatchSettings.same_toValue (s : MatchSettings) : s.toValue.same s.toValue = true := by
  simp [toValue, Value.record, Value.same, Value.sameEntries, Value.hasEntry, Value.quantity?, Value.Quantity.same]

/-! ## Categories -/

namespace Comparison

section
variable {r : Report} {m : Metrics} {v w : Value} {vs ws : List Value} {entries : List (String × Value)}

/-- The metrics of a report are the given ones, in whatever order of fields. -/
abbrev IsMeasured (r : Report) (m : Metrics) : Prop := r.metrics.Reordered m.toValue

/-- The metrics of the categories as entries. -/
def entriesOf (m : Metrics) : List (String × Value) := m.byCategory.map fun (c, b) => (c.label, .record b.fields)

theorem shows_overall (h : IsMeasured r m) : Delta.Shows (r.metrics.get "overall") (some m.overall) := by
  obtain ⟨-, hfields⟩ := h.fields (by simp)
  have hoverall := hfields _ List.mem_cons_self
  exact ⟨_, hoverall, by simp [Block.fields]⟩

/-- The metrics of the categories are found. -/
theorem categoriesOf_reordered (h : IsMeasured r m) : (categoriesOf r).Reordered (.record (entriesOf m)) := by
  obtain ⟨-, hfields⟩ := h.fields (by simp)
  have hblocks := hfields _ (List.mem_cons_of_mem _ (List.mem_cons_of_mem _ List.mem_cons_self))
  change (r.metrics.get "by_category").Reordered (.record (entriesOf m)) at hblocks
  rw [categoriesOf, Value.orElse]
  split
  · exact hblocks
  next hfalse =>
    have hempty : entriesOf m = [] := by
      by_contra hne
      exact hfalse (hblocks.isTruthy hne)
    rw [hempty]
    exact .refl _

theorem labels_entriesOf (m : Metrics) : (entriesOf m).map (·.1) = (m.byCategory.map (·.1)).map Category.label := by
  rw [entriesOf, List.map_map, List.map_map]
  rfl

theorem nodup_entriesOf (cs : List Contribution) : ((entriesOf (.ofContributions cs)).map (·.1)).Nodup := by
  rw [labels_entriesOf]
  exact (Metrics.nodup_byCategory cs).map Category.label_injective

/-- What the metrics of the categories have under the label of a category. -/
theorem shows_category {cs : List Contribution} (h : IsMeasured r (.ofContributions cs)) (c : Category) :
    Delta.Shows ((categoriesOf r).get c.label) ((Metrics.ofContributions cs).byCategory.lookup c) := by
  have hcategories := categoriesOf_reordered h
  rw [Metrics.lookup_byCategory]
  split
  next hc =>
    have hentry : (c.label, Value.record (Block.ofTally (0 < (Metrics.tallyOf cs c).defects) (Metrics.tallyOf cs c)).fields) ∈
        entriesOf (.ofContributions cs) :=
      List.mem_map_of_mem (List.mem_map_of_mem hc)
    refine ⟨[], ?_, by simp [Block.fields]⟩
    rw [List.append_nil]
    exact (hcategories.fields (nodup_entriesOf cs)).2 _ hentry
  next hc =>
    refine hcategories.get_absent fun hlabel => hc ?_
    rw [labels_entriesOf] at hlabel
    have hlisted := (List.mem_map_of_injective Category.label_injective).1 hlabel
    exact Metrics.mem_byCategory.1 hlisted

/-! ## Names -/

theorem perm_texts {ns : List String} (h : vs.Perm (ns.map .text)) :
    (vs.map Value.toText).Perm ns ∧ vs = (vs.map Value.toText).map .text := by
  constructor
  · have hmap := h.map Value.toText
    rwa [List.map_map, show Value.toText ∘ Value.text = id from funext Value.toText_text, List.map_id] at hmap
  · rw [List.map_map]
    refine ((List.map_congr_left fun x hx => ?_).trans (List.map_id vs)).symm
    obtain ⟨s, -, rfl⟩ := List.mem_map.1 (h.mem_iff.1 hx)
    rfl

/-- The keys of a record in another order. -/
theorem items_reordered (h : v.Reordered (.record entries)) :
    ∃ names : List String, v.items = .ok (names.map .text) ∧ names.Perm (entries.map (·.1)) := by
  have hkeys : (entries.map fun e => (Value.text e.1, e.2)).map (·.1) = (entries.map (·.1)).map .text := by
    rw [List.map_map, List.map_map]
    rfl
  change v.Reordered (.map (entries.map fun e => (Value.text e.1, e.2))) at h
  generalize (entries.map fun e => (Value.text e.1, e.2)) = gs at h hkeys
  cases h with
  | refl => exact ⟨_, congrArg _ hkeys, .refl _⟩
  | @map es fs _ hsame _ hperm =>
    have hes : (es.map (·.1)).Perm ((entries.map (·.1)).map .text) := by
      rw [hsame, ← hkeys]
      exact hperm.map _
    obtain ⟨hnames, htexts⟩ := perm_texts hes
    exact ⟨_, congrArg _ htexts, hnames⟩

/-- Of texts each one is kept once. -/
theorem distinct_texts (names : List String) :
    ∃ ns : List String, distinct (names.map .text) = ns.map .text ∧ ns.Nodup ∧ ∀ s, s ∈ ns ↔ s ∈ names := by
  induction names with
  | nil => exact ⟨[], rfl, List.nodup_nil, fun s => Iff.rfl⟩
  | cons n names ih =>
    obtain ⟨ns, hns, hnodup, hmem⟩ := ih
    refine ⟨n :: ns.filter (· != n), ?_, ?_, fun s => ?_⟩
    · rw [List.map_cons, distinct, hns, List.filter_map, List.map_cons]
      congr 3
      funext s
      simp [Value.same, bne]
    · exact List.nodup_cons.2 ⟨by simp, hnodup.filter _⟩
    · rw [List.mem_cons, List.mem_filter, List.mem_cons, hmem]
      by_cases hs : s = n <;> simp [hs]

/-- The names of the categories in either of two reports. -/
theorem namesOf_spec {as bs : List String} (hv : v.items = .ok (as.map .text)) (hw : w.items = .ok (bs.map .text))
    (hvm : v.isMap = true) (hwm : w.isMap = true) :
    ∃ names : List String, namesOf v w = .ok names ∧ names.Nodup ∧ ∀ s, s ∈ names ↔ s ∈ as ∨ s ∈ bs := by
  have hkeys : ∀ names : List String, (names.map Value.text).all Value.isKey = true := by
    intro names
    simp [Value.isKey]
  obtain ⟨ns, hns, hnodup, hmem⟩ := distinct_texts (as ++ bs)
  rw [List.map_append] at hns
  obtain ⟨hnames, -⟩ := perm_texts (List.mergeSort_perm (ns.map Value.text) fun x y => !before y x)
  refine ⟨_, ?_, hnames.nodup_iff.2 hnodup, fun s => ?_⟩
  · simp [namesOf, namesIn, hv, hw, hkeys, hns, hvm, hwm, bind, Except.bind, pure, Except.pure, Json.comparable]
  · rw [hnames.mem_iff, hmem, List.mem_append]

/-! ## The verdict -/

/-- What a comparison says of the categories of two metrics, of which the second is that of the candidate. -/
structure IsVerdict (t : Value.Quantity) (before after : Metrics) (c : Comparison) : Prop where
  /-- The categories listed are those of either metrics, once each. -/
  listed : ∀ k : Category, (c.categories.map (·.category)).count k.label =
    if k ∈ before.byCategory.map (·.1) ∨ k ∈ after.byCategory.map (·.1) then 1 else 0
  /-- Nothing but categories is listed. -/
  known : ∀ s ∈ c.categories.map (·.category), ∃ k : Category, k.label = s
  /-- No false alarm: a recall that did not fall is no regression. -/
  kept : ∀ k, 0 < (before.tallyAt k).defects → 0 < (after.tallyAt k).defects →
    (before.tallyAt k).recallRate ≤ (after.tallyAt k).recallRate → k.label ∉ c.regressed
  /-- A recall that fell by two ten-thousandths more than the threshold is a regression. -/
  dropped : ∀ k q, t.Reads q → (after.tallyAt k).recallRate + q + 2 / 10 ^ 4 ≤ (before.tallyAt k).recallRate →
    k.label ∈ c.regressed
  /-- The loss of all matches is a regression, whatever the threshold. -/
  lost : ∀ k, 0 < (before.tallyAt k).matched → (after.tallyAt k).matched = 0 → k.label ∈ c.regressed

end

section
variable {t : Value.Quantity} {b c : Report} {r : Comparison} {cs ds : List Contribution}

/-- The categories of a comparison, each with the comparison of its blocks. -/
theorem categories_of_ofReports (h : ofReports t b c = .ok r) :
    ∃ names, namesOf (categoriesOf b) (categoriesOf c) = .ok names ∧
      names.mapM (fun name => Delta.ofBlocks t name ((categoriesOf b).get name) ((categoriesOf c).get name)) =
        .ok r.categories := by
  simp only [ofReports, bind_eq_ok] at h
  obtain ⟨names, hnames, categories, hcategories, overall, -, notes, -, h⟩ := h
  refine ⟨names, hnames, ?_⟩
  split at h
  · cases h
  · obtain rfl := Except.ok.inj h
    exact hcategories

/-- A category is listed. -/
abbrev Occurs (cs ds : List Contribution) (k : Category) : Prop :=
  k ∈ (Metrics.ofContributions cs).byCategory.map (·.1) ∨ k ∈ (Metrics.ofContributions ds).byCategory.map (·.1)

/-- A recall that drops, or the loss of all matches. -/
abbrev IsLost (t : Value.Quantity) (cs ds : List Contribution) (k : Category) : Prop :=
  Delta.Drops t (Delta.recallOf ((Metrics.ofContributions cs).byCategory.lookup k))
      (Delta.recallOf ((Metrics.ofContributions ds).byCategory.lookup k)) ∨
    0 < ((Metrics.ofContributions cs).tallyAt k).matched ∧ ((Metrics.ofContributions ds).tallyAt k).matched = 0

theorem namesOf_measured (hb : IsMeasured b (.ofContributions cs)) (hc : IsMeasured c (.ofContributions ds)) :
    ∃ names : List String, namesOf (categoriesOf b) (categoriesOf c) = .ok names ∧ names.Nodup ∧
      ∀ s, s ∈ names ↔ ∃ k : Category, k.label = s ∧ Occurs cs ds k := by
  obtain ⟨as, has, hasp⟩ := items_reordered (categoriesOf_reordered hb)
  obtain ⟨bs, hbs, hbsp⟩ := items_reordered (categoriesOf_reordered hc)
  obtain ⟨names, hnames, hnodup, hmem⟩ := namesOf_spec has hbs
    ((categoriesOf_reordered hb).fields (nodup_entriesOf cs)).1
    ((categoriesOf_reordered hc).fields (nodup_entriesOf ds)).1
  refine ⟨names, hnames, hnodup, fun s => ?_⟩
  rw [hmem, hasp.mem_iff, hbsp.mem_iff, labels_entriesOf, labels_entriesOf, List.mem_map, List.mem_map]
  constructor
  · rintro (⟨k, hk, rfl⟩ | ⟨k, hk, rfl⟩)
    · exact ⟨k, rfl, .inl hk⟩
    · exact ⟨k, rfl, .inr hk⟩
  · rintro ⟨k, rfl, hk | hk⟩
    · exact .inl ⟨k, hk, rfl⟩
    · exact .inr ⟨k, hk, rfl⟩

theorem occurs_of_isLost {k : Category} (h : IsLost t cs ds k) : Occurs cs ds k := by
  refine .inl ?_
  by_contra hk
  have hnone : (Metrics.ofContributions cs).byCategory.lookup k = none := by
    rw [Metrics.lookup_byCategory, if_neg (Metrics.mem_byCategory.not.1 hk)]
  rcases h with hdrops | ⟨hpos, -⟩
  · rw [hnone] at hdrops
    exact Delta.not_drops_none.1 hdrops
  · rw [Metrics.tallyAt, hnone] at hpos
    exact absurd hpos (Nat.lt_irrefl 0)

/-- The comparison of the blocks of a category is a regression if the category is lost. -/
theorem ofBlocks_measured {k : Category} {d : Delta} (hb : IsMeasured b (.ofContributions cs))
    (hc : IsMeasured c (.ofContributions ds))
    (h : Delta.ofBlocks t k.label ((categoriesOf b).get k.label) ((categoriesOf c).get k.label) = .ok d) :
    d.category = k.label ∧ (d.regressed = true ↔ IsLost t cs ds k) := by
  obtain ⟨hcategory, hregressed⟩ := Delta.regressed_iff (shows_category hb k) (shows_category hc k) h
  rw [Metrics.matchesOf_lookup, Metrics.matchesOf_lookup] at hregressed
  exact ⟨hcategory, hregressed⟩

/-- The categories listed are those that occur, and a category has regressed if its recall drops or its matches
are lost. -/
theorem categories_spec (hb : IsMeasured b (.ofContributions cs)) (hc : IsMeasured c (.ofContributions ds))
    (h : ofReports t b c = .ok r) : (r.categories.map (·.category)).Nodup ∧
      (∀ s, s ∈ r.categories.map (·.category) ↔ ∃ k : Category, k.label = s ∧ Occurs cs ds k) ∧
      ∀ k : Category, k.label ∈ r.regressed ↔ IsLost t cs ds k := by
  obtain ⟨names, hnames, hall⟩ := categories_of_ofReports h
  obtain ⟨names', hnames', hnodup, hmem⟩ := namesOf_measured hb hc
  obtain rfl := Except.ok.inj (hnames.symm.trans hnames')
  have hsame : r.categories.map (·.category) = names := by
    have hall' := (List.forall₂_and_left (p := (· ∈ names)) _ _).2 ⟨fun name hname => hname, mapM_eq_ok.1 hall⟩
    have heq : List.Forall₂ (· = ·) names (r.categories.map (·.category)) := by
      rw [List.forall₂_map_right_iff]
      refine hall'.imp fun name d ⟨hname, hd⟩ => ?_
      obtain ⟨k, rfl, -⟩ := (hmem name).1 hname
      exact (ofBlocks_measured hb hc hd).1.symm
    rw [List.forall₂_eq_eq_eq] at heq
    exact heq.symm
  rw [hsame]
  refine ⟨hnodup, hmem, fun k => ?_⟩
  rw [regressed, List.mem_map]
  constructor
  · rintro ⟨d, hd, hlabel⟩
    obtain ⟨hd, hregressed⟩ := List.mem_filter.1 hd
    obtain ⟨name, hname, hof⟩ := (mem_of_mapM_eq_ok hall d).1 hd
    obtain ⟨k', rfl, -⟩ := (hmem name).1 hname
    obtain ⟨hcategory, hiff⟩ := ofBlocks_measured hb hc hof
    obtain rfl := Category.label_injective (hcategory.symm.trans hlabel)
    exact hiff.1 hregressed
  · intro hlost
    obtain ⟨d, hd, hof⟩ := returns_of_mapM_eq_ok hall k.label ((hmem _).2 ⟨k, rfl, occurs_of_isLost hlost⟩)
    obtain ⟨hcategory, hiff⟩ := ofBlocks_measured hb hc hof
    exact ⟨d, List.mem_filter.2 ⟨hd, hiff.2 hlost⟩, hcategory⟩

/-- Settings that are the same are not noted, and others have to be written. -/
abbrev CanNote (b c : Report) : Prop :=
  b.matching.same c.matching = false → (∃ s, Json.inline b.matching = .ok s) ∧ ∃ s, Json.inline c.matching = .ok s

theorem notesOf_returns (h : CanNote b c) : ∃ notes, notesOf b c = .ok notes := by
  rw [notesOf]
  split
  · exact ⟨_, rfl⟩
  next hsame =>
    obtain ⟨⟨s, hs⟩, s', hs'⟩ := h (eq_false_of_ne_true hsame)
    simp only [hs, hs']
    exact ⟨_, rfl⟩

/-- Reports whose metrics count results are compared. -/
theorem ofReports_returns (hb : IsMeasured b (.ofContributions cs)) (hc : IsMeasured c (.ofContributions ds))
    (hcs : cs.length < 2 ^ 63) (hds : ds.length < 2 ^ 63) {x : Float} (ht : t.toFloat? = some x)
    (hnote : CanNote b c) : ∃ r, ofReports t b c = .ok r := by
  obtain ⟨names, hnames, -, hmem⟩ := namesOf_measured hb hc
  have hblocks : ∀ name ∈ names, ∃ d,
      Delta.ofBlocks t name ((categoriesOf b).get name) ((categoriesOf c).get name) = .ok d := by
    intro name hname
    obtain ⟨k, rfl, -⟩ := (hmem name).1 hname
    exact Delta.ofBlocks_returns _ ht (shows_category hb k) (shows_category hc k)
      (fun _ hblock => Metrics.isOrdinary_of_lookup hcs hblock) fun _ hblock => Metrics.isOrdinary_of_lookup hds hblock
  obtain ⟨categories, hcategories⟩ := exists_mapM hblocks
  obtain ⟨overall, hoverall⟩ := Delta.ofBlocks_returns "overall" ht (shows_overall hb) (shows_overall hc)
    (fun _ hblock => Option.some.inj hblock ▸ Metrics.isOrdinary_overall hcs)
    fun _ hblock => Option.some.inj hblock ▸ Metrics.isOrdinary_overall hds
  obtain ⟨notes, hnotes⟩ := notesOf_returns hnote
  cases h : ofReports t b c with
  | ok r => exact ⟨r, rfl⟩
  | error e =>
    simp only [ofReports, hnames, hcategories, hoverall, hnotes, ht, bind, Except.bind] at h
    cases h

section
variable {k : Category}

/-- A recall that does not fall is not lost. -/
theorem not_isLost (ht : t.less (.whole 0) = false) (hbefore : 0 < ((Metrics.ofContributions cs).tallyAt k).defects)
    (hafter : 0 < ((Metrics.ofContributions ds).tallyAt k).defects)
    (h : ((Metrics.ofContributions cs).tallyAt k).recallRate ≤ ((Metrics.ofContributions ds).tallyAt k).recallRate) :
    ¬ IsLost t cs ds k := by
  have hb := ((Metrics.ofContributions cs).tallyAt k).recallRate_mem
  have hc := ((Metrics.ofContributions ds).tallyAt k).recallRate_mem
  rintro (hdrops | ⟨hpos, hnone⟩)
  · rw [Metrics.recallOf_lookup, Metrics.recallOf_lookup, if_pos hbefore, if_pos hafter] at hdrops
    exact Delta.not_drops_of_le ht (Score.units_le hb.1 hb.2) (Score.units_le hc.1 hc.2) (Score.units_mono hb.1 h) hdrops
  · rw [Tally.recallRate_eq_zero_iff.2 hnone] at h
    have hzero := Tally.recallRate_eq_zero_iff.1 (le_antisymm h hb.1)
    omega

/-- Against itself nothing is lost. -/
theorem not_isLost_self (ht : t.less (.whole 0) = false) : ¬ IsLost t cs cs k := by
  by_cases hd : 0 < ((Metrics.ofContributions cs).tallyAt k).defects
  · exact not_isLost ht hd hd le_rfl
  · rintro (hdrops | ⟨hpos, hnone⟩)
    · rw [Metrics.recallOf_lookup, if_neg hd] at hdrops
      exact Delta.not_drops_none.1 hdrops
    · omega

/-- A recall that falls by two ten-thousandths more than the threshold is lost. -/
theorem isLost_of_reads {q : ℚ} (ht : t.less (.whole 0) = false) (hq : t.Reads q)
    (h : ((Metrics.ofContributions ds).tallyAt k).recallRate + q + 2 / 10 ^ 4 ≤
      ((Metrics.ofContributions cs).tallyAt k).recallRate) : IsLost t cs ds k := by
  have hb := ((Metrics.ofContributions cs).tallyAt k).recallRate_mem
  have hc := ((Metrics.ofContributions ds).tallyAt k).recallRate_mem
  have hq0 : -1 / 2 ^ 50 ≤ q := hq.nonneg ht
  have hpos : 0 < ((Metrics.ofContributions cs).tallyAt k).matched := by
    refine Nat.pos_of_ne_zero fun hzero => ?_
    rw [Tally.recallRate_eq_zero_iff.2 hzero] at h
    linarith [hc.1]
  have hbefore : 0 < ((Metrics.ofContributions cs).tallyAt k).defects := Nat.add_pos_left hpos _
  by_cases hafter : 0 < ((Metrics.ofContributions ds).tallyAt k).defects
  · refine .inl ?_
    rw [Metrics.recallOf_lookup, Metrics.recallOf_lookup, if_pos hbefore, if_pos hafter]
    have hbe := (abs_le.1 (Score.units_within hb.1 hb.2)).1
    have hce := (abs_le.1 (Score.units_within hc.1 hc.2)).2
    refine Delta.drops_of_reads ht hq (Score.units_le hb.1 hb.2) (Score.units_le hc.1 hc.2) ?_
    linarith
  -- Without known defects there are no matches either.
  · have hnone : ((Metrics.ofContributions ds).tallyAt k).matched = 0 := by
      rw [Tally.defects] at hafter
      omega
    exact .inr ⟨hpos, hnone⟩

end

/-- **The verdict.** A report that holds the metrics of the results `bs` is set against one that holds those of
`cs`, with a threshold that is not negative. It is compared, if the threshold is a number that a double holds, if
settings that differ can be noted, and if neither list is longer than a list can be. Whatever the lengths, every
comparison that is returned tells a recall that fell from one that did not, and against itself a report has not
regressed. -/
theorem verdict {bs cs : List MatchResult} {before after : Metrics} (hbs : Metrics.ofResults bs = .ok before)
    (hcs : Metrics.ofResults cs = .ok after) (hb : IsMeasured b before) (hc : IsMeasured c after)
    (ht : t.less (.whole 0) = false) :
    (bs.length < 2 ^ 63 → cs.length < 2 ^ 63 → (∃ x, t.toFloat? = some x) → CanNote b c → ∃ r, ofReports t b c = .ok r) ∧
    (∀ r, ofReports t b c = .ok r → IsVerdict t before after r) ∧
    ∀ r, ofReports t b b = .ok r → r.hasRegression = false := by
  obtain ⟨xs, hxs, hbefore⟩ := bind_eq_ok.1 hbs
  obtain ⟨ys, hys, hafter⟩ := bind_eq_ok.1 hcs
  obtain rfl := pure_eq_ok.1 hbefore
  obtain rfl := pure_eq_ok.1 hafter
  refine ⟨fun hbn hcn hx hnote => ?_, fun r hr => ?_, fun r hr => ?_⟩
  · obtain ⟨x, hx⟩ := hx
    exact ofReports_returns hb hc ((mapM_eq_ok.1 hxs).length_eq ▸ hbn) ((mapM_eq_ok.1 hys).length_eq ▸ hcn) hx hnote
  · obtain ⟨hnodup, hmem, hregressed⟩ := categories_spec hb hc hr
    refine ⟨fun k => ?_, fun s hs => ?_, fun k hd hd' hle hk => ?_, fun k q hq hle => ?_, fun k hpos hnone => ?_⟩
    · have hlisted : k.label ∈ r.categories.map (·.category) ↔ Occurs xs ys k :=
        (hmem _).trans ⟨fun ⟨k', hlabel, hk'⟩ => Category.label_injective hlabel ▸ hk', fun hk => ⟨k, rfl, hk⟩⟩
      rw [hnodup.count]
      exact if_congr hlisted rfl rfl
    · obtain ⟨k, hk, -⟩ := (hmem s).1 hs
      exact ⟨k, hk⟩
    · exact not_isLost ht hd hd' hle ((hregressed k).1 hk)
    · exact (hregressed k).2 (isLost_of_reads ht hq hle)
    · exact (hregressed k).2 (.inr ⟨hpos, hnone⟩)
  · obtain ⟨-, hmem, hregressed⟩ := categories_spec hb hb hr
    rw [hasRegression, List.any_eq_false]
    intro d hd hlost
    have hlabel := List.mem_map_of_mem (f := (·.category)) hd
    obtain ⟨k, hk, -⟩ := (hmem _).1 hlabel
    have hlisted : d.category ∈ r.regressed := List.mem_map_of_mem (List.mem_filter.2 ⟨hd, hlost⟩)
    rw [← hk] at hlisted
    exact not_isLost_self ht ((hregressed k).1 hlisted)

/-- A run that found the one known defect, against a run without results and against itself. -/
theorem verdict_nested :
    (∃ r, ofReports (.whole 0) Corpus.Nested.report { Corpus.Nested.report with
        metrics := (Metrics.ofContributions []).toValue
        results := [] } = .ok r ∧
      (r.categories.map (·.category)).count Category.other.label = 1 ∧ Category.other.label ∈ r.regressed) ∧
    ∀ r, ofReports (.whole 0) Corpus.Nested.report Corpus.Nested.report = .ok r → r.hasRegression = false := by
  have hbefore : Metrics.ofResults Corpus.Nested.results = .ok Corpus.Nested.metrics := rfl
  have hafter : Metrics.ofResults [] = .ok (.ofContributions []) := rfl
  have hsame : Corpus.Nested.report.matching.same Corpus.Nested.report.matching = true := MatchSettings.same_toValue _
  obtain ⟨hreturns, hverdict, hself⟩ := verdict (t := .whole 0) (b := Corpus.Nested.report)
    (c := { Corpus.Nested.report with
      metrics := (Metrics.ofContributions []).toValue
      results := [] }) hbefore hafter (.refl _) (.refl _) rfl
  obtain ⟨r, hr⟩ := hreturns (by decide) (by decide) ⟨_, rfl⟩ fun hne => absurd hsame (by rw [hne]; decide)
  have hshown := hverdict r hr
  exact ⟨⟨r, hr, hshown.listed .other, hshown.lost .other (by decide) (by decide)⟩, hself⟩

end

end Comparison

end Assay
