import Mathlib
import Assay.Matching.Assignment

/-!
# The search for a free column

A search keeps a trail of the columns that it has reached. Their rows are all different rows that are
placed or being placed, so the trail is never longer than there are rows, and as long as there are no
more rows than columns some column is left to go to (`Explored.nearest_isSome`). `Explored` is what a
pass of the search keeps: the potentials stay feasible, chosen pairs stay tight, and for every column
that is not reached yet the search knows the cheapest way to it. `Trail` is the way back.
-/

namespace Assay.Assignment

open Finset

namespace State

/-- The potential of a row. -/
def u (s : State) (i : ℕ) : ℤ := s.rowPotential.getD i 0

/-- The potential of a column. -/
def v (s : State) (j : ℕ) : ℤ := s.columnPotential.getD j 0

/-- The row of a column. -/
def rowAt (s : State) (j : ℕ) : ℕ := s.rowOf.getD j 0

/-- The column from which a column was reached. -/
def parent (s : State) (j : ℕ) : ℕ := s.cameFrom.getD j 0

/-- What a pair costs beyond its two potentials. -/
def surplus (cost : ℕ → ℕ → ℤ) (s : State) (i j : ℕ) : ℤ := cost i j - s.u i - s.v j

end State

/-- The columns `C` hold each of the rows `1 … k` exactly once, and no other row. -/
structure Seats (C : Finset ℕ) (k : ℕ) (row : ℕ → ℕ) : Prop where
  le : ∀ j ∈ C, row j ≤ k
  inj : ∀ j ∈ C, ∀ j' ∈ C, row j ≠ 0 → row j = row j' → j = j'
  onto : ∀ i, 1 ≤ i → i ≤ k → ∃ j ∈ C, row j = i

/-- The potentials of the rows `1 … k` and of the columns prove the pairs of the columns `1 … m`
cheapest. -/
structure Dual (cost : ℕ → ℕ → ℤ) (m k : ℕ) (s : State) : Prop where
  feasible : ∀ i j, 1 ≤ i → i ≤ k → 1 ≤ j → j ≤ m → 0 ≤ s.surplus cost i j
  tight : ∀ j, 1 ≤ j → j ≤ m → s.rowAt j ≠ 0 → s.surplus cost (s.rowAt j) j = 0
  nonpos : ∀ j ≤ m, s.v j ≤ 0
  free : ∀ j, 1 ≤ j → j ≤ m → s.rowAt j = 0 → s.v j = 0
  unplaced : ∀ i, k < i → s.u i = 0

/-- Columns up to `m`, latest first, each reached from an earlier one by a pair that `ok` admits; the
first is column zero. -/
inductive Trail (m : ℕ) (parent : ℕ → ℕ) (ok : ℕ → ℕ → Prop) : List ℕ → Prop
  | start : Trail m parent ok [0]
  | step {j : ℕ} {t : List ℕ} : Trail m parent ok t → j ∉ t → 1 ≤ j → j ≤ m → parent j ∈ t → ok (parent j) j →
      Trail m parent ok (j :: t)

/-- The row of column `k` may move to column `j` without any surplus. -/
def Fits (cost : ℕ → ℕ → ℤ) (s : State) (row : ℕ → ℕ) (k j : ℕ) : Prop :=
  row k ≠ 0 ∧ s.surplus cost (row k) j = 0

namespace Trail

variable {m : ℕ} {parent parent' : ℕ → ℕ} {ok ok' : ℕ → ℕ → Prop} {t : List ℕ}

theorem zero_mem (h : Trail m parent ok t) : 0 ∈ t := by
  induction h with
  | start => simp
  | step _ _ _ _ _ _ ih => exact List.mem_cons_of_mem _ ih

theorem le (h : Trail m parent ok t) : ∀ j ∈ t, j ≤ m := by
  induction h with
  | start => simp
  | step _ _ _ hm _ _ ih =>
    intro k hk
    rcases List.mem_cons.1 hk with rfl | hk
    · exact hm
    · exact ih k hk

theorem nodup (h : Trail m parent ok t) : t.Nodup := by
  induction h with
  | start => simp
  | step _ hj _ _ _ _ ih => exact List.nodup_cons.2 ⟨hj, ih⟩

theorem length_le (h : Trail m parent ok t) : t.length ≤ m + 1 := by
  have hs : t.toFinset ⊆ range (m + 1) := fun j hj => by
    have := h.le j (List.mem_toFinset.1 hj)
    simp; omega
  have := card_le_card hs
  rwa [List.toFinset_card_of_nodup h.nodup, card_range] at this

/-- A trail looks at its own columns only. -/
theorem congr (h : Trail m parent ok t) (hp : ∀ j ∈ t, parent' j = parent j)
    (hok : ∀ k ∈ t, ∀ j ∈ t, ok k j → ok' k j) : Trail m parent' ok' t := by
  induction h with
  | start => exact .start
  | @step j t _ hj h1 hm hpt hok' ih =>
    have hpj : parent' j = parent j := hp j (List.mem_cons_self ..)
    refine .step (ih ?_ ?_) hj h1 hm (hpj ▸ hpt) ?_
    · exact fun k hk => hp k (List.mem_cons_of_mem _ hk)
    · exact fun k hk l hl => hok k (List.mem_cons_of_mem _ hk) l (List.mem_cons_of_mem _ hl)
    · rw [hpj]; exact hok _ (List.mem_cons_of_mem _ hpt) _ (List.mem_cons_self ..) hok'

end Trail

/-! ## What a search knows -/

/-- The cheapest way to a column from the columns `t`; nothing is known as long as there are none. -/
def Known (cost : ℕ → ℕ → ℤ) (t : List ℕ) (s : Search) (j : ℕ) : Prop :=
  match s.slack.getD j none with
  | none => t = []
  | some x => s.state.parent j ∈ t ∧ x = s.state.surplus cost (s.state.rowAt (s.state.parent j)) j ∧
      ∀ k ∈ t, x ≤ s.state.surplus cost (s.state.rowAt k) j

/-- A search that places row `i` has reached the columns `t`. -/
structure Explored (cost : ℕ → ℕ → ℤ) (m i : ℕ) (t : List ℕ) (s : Search) : Prop where
  seats : Seats (range (m + 1)) i s.state.rowAt
  first : s.state.rowAt 0 = i
  dual : Dual cost m i s.state
  reached : ∀ j ≤ m, (s.reached.getD j false = true ↔ j ∈ t)
  occupied : ∀ k ∈ t, k ≤ m ∧ s.state.rowAt k ≠ 0
  known : ∀ j, 1 ≤ j → j ≤ m → j ∉ t → Known cost t s j

/-- The way back of a search. -/
abbrev Search.Way (cost : ℕ → ℕ → ℤ) (m : ℕ) (s : Search) : List ℕ → Prop :=
  Trail m s.state.parent (Fits cost s.state s.state.rowAt)

section
variable {cost : ℕ → ℕ → ℤ} {n m i : ℕ} {t : List ℕ} {s : Search}

/-- The rows of reached columns are all different. -/
theorem Explored.length_le (h : Explored cost m i t s) (hn : t.Nodup) : t.length ≤ i := by
  have inj : ∀ j ∈ t.toFinset, ∀ k ∈ t.toFinset, s.state.rowAt j = s.state.rowAt k → j = k := by
    intro j hj k hk he
    obtain ⟨hjm, hj0⟩ := h.occupied j (List.mem_toFinset.1 hj)
    obtain ⟨hkm, _⟩ := h.occupied k (List.mem_toFinset.1 hk)
    exact h.seats.inj j (by simp; omega) k (by simp; omega) hj0 he
  have sub : t.toFinset.image s.state.rowAt ⊆ Icc 1 i := by
    intro r hr
    obtain ⟨j, hj, rfl⟩ := mem_image.1 hr
    obtain ⟨hjm, hj0⟩ := h.occupied j (List.mem_toFinset.1 hj)
    have := h.seats.le j (by simp; omega)
    simp; omega
  have := card_le_card sub
  rw [card_image_of_injOn inj, List.toFinset_card_of_nodup hn] at this
  simpa using this

/-- A column is left as long as fewer columns are reached than there are. -/
theorem Explored.exists_unreached (h : Explored cost m i t s) (hn : t.Nodup) (h0 : 0 ∈ t) (him : i ≤ m) :
    ∃ j, 1 ≤ j ∧ j ≤ m ∧ j ∉ t := by
  have hl := h.length_le hn
  have hc : t.toFinset.card < (range (m + 1)).card := by
    rw [List.toFinset_card_of_nodup hn, card_range]; omega
  obtain ⟨j, hj, hjt⟩ := exists_mem_notMem_of_card_lt_card hc
  have hjt : j ∉ t := fun e => hjt (List.mem_toFinset.2 e)
  have : j ≠ 0 := fun e => hjt (e ▸ h0)
  simp only [mem_range] at hj
  exact ⟨j, by omega, by omega, hjt⟩

/-- Once a column is reached, a way to every other one is known. -/
theorem Explored.exists_known (h : Explored cost m i t s) (h0 : 0 ∈ t) {l : ℕ} (hl1 : 1 ≤ l) (hlm : l ≤ m)
    (hlt : l ∉ t) : ∃ x, s.slack.getD l none = some x ∧ s.state.parent l ∈ t ∧
      x = s.state.surplus cost (s.state.rowAt (s.state.parent l)) l ∧
      ∀ k ∈ t, x ≤ s.state.surplus cost (s.state.rowAt k) l := by
  have hk := h.known l hl1 hlm hlt
  unfold Known at hk
  cases hs : s.slack.getD l none with
  | none => rw [hs] at hk; simp only at hk; rw [hk] at h0; cases h0
  | some x => rw [hs] at hk; exact ⟨x, rfl, hk⟩

/-! ## Relaxing -/

theorem getD_reached_relax (cost : ℕ → ℕ → ℤ) (s : Search) {j : ℕ} (hj : j ≤ m) :
    ((s.mark m).relax cost m).reached.getD j false = (j == s.column || s.reached.getD j false) := by
  show (tabulate (m + 1) _).getD j false = _
  rw [getD_tabulate, if_pos (by omega)]

theorem improves_mark (cost : ℕ → ℕ → ℤ) (s : Search) {j : ℕ} (hj : j ≤ m) :
    (s.mark m).improves cost j = (j != 0 && !(j == s.column || s.reached.getD j false) &&
      match s.slack.getD j none with
      | none => true
      | some known => decide (s.state.surplus cost (s.state.rowAt s.column) j < known)) := by
  unfold Search.improves
  have : (s.mark m).reached.getD j false = (j == s.column || s.reached.getD j false) := by
    show (tabulate (m + 1) _).getD j false = _
    rw [getD_tabulate, if_pos (by omega)]
  rw [this]
  rfl

theorem parent_relax (cost : ℕ → ℕ → ℤ) (s : Search) {j : ℕ} (hj : j ≤ m) :
    ((s.mark m).relax cost m).state.parent j =
      if (s.mark m).improves cost j then s.column else s.state.parent j := by
  show (tabulate (m + 1) _).getD j 0 = _
  rw [getD_tabulate, if_pos (by omega)]
  rfl

theorem slack_relax (cost : ℕ → ℕ → ℤ) (s : Search) {j : ℕ} (hj : j ≤ m) :
    ((s.mark m).relax cost m).slack.getD j none =
      if (s.mark m).improves cost j then some (s.state.surplus cost (s.state.rowAt s.column) j)
      else s.slack.getD j none := by
  show (tabulate (m + 1) _).getD j none = _
  rw [getD_tabulate, if_pos (by omega)]
  rfl

/-- Relaxing makes known what the current column offers. -/
theorem Explored.known_relax (h : Explored cost m i t s) {j : ℕ} (h1 : 1 ≤ j) (hj : j ≤ m) (hjt : j ∉ s.column :: t) :
    Known cost (s.column :: t) ((s.mark m).relax cost m) j := by
  have hjc : j ≠ s.column := fun e => hjt (e ▸ List.mem_cons_self ..)
  have hjt' : j ∉ t := fun e => hjt (List.mem_cons_of_mem _ e)
  have hnr : s.reached.getD j false = false := by
    rw [← Bool.not_eq_true, h.reached j hj]; exact hjt'
  have himp := improves_mark cost s hj
  have hk := h.known j h1 hj hjt'
  have hj0 : j ≠ 0 := by omega
  unfold Known at hk ⊢
  rw [slack_relax cost s hj, parent_relax cost s hj]
  cases hs : s.slack.getD j none with
  | none =>
    rw [hs] at himp hk
    simp only at hk
    have : (s.mark m).improves cost j = true := by simp [himp, hj0, hjc, hnr]
    simp only [this, if_true]
    refine ⟨List.mem_cons_self .., rfl, ?_⟩
    intro k hk'
    simp only [hk, List.mem_singleton] at hk'
    rw [hk']; exact le_refl _
  | some x =>
    rw [hs] at himp hk
    obtain ⟨hp, hx, hmin⟩ := hk
    by_cases hlt : s.state.surplus cost (s.state.rowAt s.column) j < x
    · have : (s.mark m).improves cost j = true := by simp [himp, hj0, hjc, hnr, hlt]
      simp only [this, if_true]
      refine ⟨List.mem_cons_self .., rfl, ?_⟩
      intro k hk'
      rcases List.mem_cons.1 hk' with rfl | hk'
      · exact le_refl _
      · have := hmin k hk'
        exact le_trans (le_of_lt hlt) this
    · have : (s.mark m).improves cost j = false := by simp [himp, hlt]
      simp only [this, Bool.false_eq_true, if_false]
      refine ⟨List.mem_cons_of_mem _ hp, hx, ?_⟩
      intro k hk'
      rcases List.mem_cons.1 hk' with rfl | hk'
      · exact not_lt.1 hlt
      · exact hmin k hk'

/-- Relaxing changes no way to a column that is reached. -/
theorem Explored.way_relax (h : Explored cost m i t s) (hw : s.Way cost m (s.column :: t)) :
    ((s.mark m).relax cost m).Way cost m (s.column :: t) := by
  refine hw.congr (fun j hj => ?_) (fun k _ j _ hok => hok)
  have hjm := hw.le j hj
  have : (s.mark m).improves cost j = false := by
    rw [improves_mark cost s hjm]
    rcases List.mem_cons.1 hj with rfl | hj'
    · simp
    · have := (h.reached j hjm).2 hj'
      simp only [this, Bool.or_true, Bool.not_true, Bool.and_false, Bool.false_and]
  rw [parent_relax cost s hjm, this]
  simp

/-- Relaxing adds the current column to those that are reached. -/
theorem Explored.relax (h : Explored cost m i t s) (hw : s.Way cost m (s.column :: t)) (hr : s.row ≠ 0) :
    Explored cost m i (s.column :: t) ((s.mark m).relax cost m) := by
  refine ⟨h.seats, h.first, ⟨h.dual.feasible, h.dual.tight, h.dual.nonpos, h.dual.free, h.dual.unplaced⟩, ?_, ?_,
    fun j h1 hj hjt => h.known_relax h1 hj hjt⟩
  · intro j hj
    rw [getD_reached_relax cost s hj, Bool.or_eq_true, beq_iff_eq, h.reached j hj, List.mem_cons]
  · intro k hk
    refine ⟨hw.le k hk, ?_⟩
    rcases List.mem_cons.1 hk with rfl | hk
    · exact hr
    · exact (h.occupied k hk).2

/-! ## The nearest column -/

/-- `best` is the cheapest of the columns `js` that are not reached and have a known way. -/
def Cheapest (s : Search) (js : List ℕ) (best : Option (ℕ × ℤ)) : Prop :=
  match best with
  | none => ∀ k ∈ js, s.reached.getD k false = true ∨ s.slack.getD k none = none
  | some (j, d) => j ∈ js ∧ s.reached.getD j false = false ∧ s.slack.getD j none = some d ∧
      ∀ k ∈ js, s.reached.getD k false = false → ∀ y, s.slack.getD k none = some y → d ≤ y

/-- A column that is reached or that no way is known to may be passed over. -/
theorem Cheapest.skip {js : List ℕ} {best : Option (ℕ × ℤ)} (h : Cheapest s js best) {k : ℕ}
    (hk : s.reached.getD k false = true ∨ s.slack.getD k none = none) : Cheapest s (js ++ [k]) best := by
  rcases best with _ | ⟨j, d⟩
  · intro l hl
    rcases List.mem_append.1 hl with hl | hl
    · exact h l hl
    · rw [List.mem_singleton.1 hl]; exact hk
  · obtain ⟨h1, h2, h3, h4⟩ := h
    refine ⟨List.mem_append_left _ h1, h2, h3, ?_⟩
    intro l hl hlr y hy
    rcases List.mem_append.1 hl with hl | hl
    · exact h4 l hl hlr y hy
    · rw [List.mem_singleton.1 hl] at hlr hy
      rcases hk with hr | hs
      · rw [hr] at hlr; cases hlr
      · rw [hs] at hy; cases hy

theorem Cheapest.nearer {js : List ℕ} {best : Option (ℕ × ℤ)} (h : Cheapest s js best) (k : ℕ) :
    Cheapest s (js ++ [k]) (s.nearer best k) := by
  unfold Search.nearer
  cases hr : s.reached.getD k false with
  | true => exact h.skip (Or.inl hr)
  | false =>
    cases hs : s.slack.getD k none with
    | none => exact h.skip (Or.inr hs)
    | some x =>
      rcases best with _ | ⟨j, d⟩
      · refine ⟨by simp, hr, hs, ?_⟩
        intro l hl hlr y hy
        rcases List.mem_append.1 hl with hl | hl
        · rcases h l hl with h | h
          · rw [h] at hlr; cases hlr
          · rw [h] at hy; cases hy
        · rw [List.mem_singleton.1 hl, hs] at hy; cases hy; exact le_refl _
      · obtain ⟨h1, h2, h3, h4⟩ := h
        have hother : ∀ l ∈ js ++ [k], s.reached.getD l false = false → ∀ y, s.slack.getD l none = some y →
            d ≤ y ∨ y = x := by
          intro l hl hlr y hy
          rcases List.mem_append.1 hl with hl | hl
          · exact Or.inl (h4 l hl hlr y hy)
          · rw [List.mem_singleton.1 hl, hs] at hy; cases hy; exact Or.inr rfl
        by_cases hlt : x < d
        · simp only [Bool.false_eq_true, if_false, if_pos hlt]
          refine ⟨by simp, hr, hs, ?_⟩
          intro l hl hlr y hy
          rcases hother l hl hlr y hy with hd | hd <;> omega
        · simp only [Bool.false_eq_true, if_false, if_neg hlt]
          refine ⟨List.mem_append_left _ h1, h2, h3, ?_⟩
          intro l hl hlr y hy
          rcases hother l hl hlr y hy with hd | hd <;> omega

theorem cheapest_nearest (m : ℕ) (s : Search) :
    Cheapest s ((List.range m).map (· + 1)) (s.nearest m) := by
  unfold Search.nearest
  generalize (List.range m).map (· + 1) = js
  induction js using List.reverseRecOn with
  | nil => intro k hk; cases hk
  | append_singleton js k ih => rw [List.foldl_append]; exact ih.nearer k

theorem mem_columns {j : ℕ} : j ∈ (List.range m).map (· + 1) ↔ 1 ≤ j ∧ j ≤ m := by
  simp only [List.mem_map, List.mem_range]
  constructor
  · rintro ⟨k, hk, rfl⟩; omega
  · rintro ⟨h1, h2⟩; exact ⟨j - 1, by omega, by omega⟩

/-- The column that a search goes to next is new, and no other new one is nearer. -/
theorem Explored.nearest_spec (h : Explored cost m i t s) {j : ℕ} {d : ℤ} (hj : s.nearest m = some (j, d)) :
    1 ≤ j ∧ j ≤ m ∧ j ∉ t ∧ s.slack.getD j none = some d ∧
      ∀ k, 1 ≤ k → k ≤ m → k ∉ t → ∀ y, s.slack.getD k none = some y → d ≤ y := by
  have hc := cheapest_nearest m s
  rw [hj] at hc
  obtain ⟨h1, h2, h3, h4⟩ := hc
  obtain ⟨hj1, hjm⟩ := mem_columns.1 h1
  refine ⟨hj1, hjm, ?_, h3, ?_⟩
  · intro hjt; rw [(h.reached j hjm).2 hjt] at h2; cases h2
  · intro k hk1 hkm hkt
    refine h4 k (mem_columns.2 ⟨hk1, hkm⟩) ?_
    rw [← Bool.not_eq_true, h.reached k hkm]; exact hkt

/-- A search that has reached some column, but not more than there are rows, can go on. -/
theorem Explored.nearest_isSome (h : Explored cost m i t s) (hn : t.Nodup) (h0 : 0 ∈ t) (him : i ≤ m) :
    ∃ j d, s.nearest m = some (j, d) := by
  obtain ⟨j, h1, hjm, hjt⟩ := h.exists_unreached hn h0 him
  obtain ⟨x, hx, -⟩ := h.exists_known h0 h1 hjm hjt
  have hc := cheapest_nearest m s
  cases hb : s.nearest m with
  | some b => exact ⟨b.1, b.2, rfl⟩
  | none =>
    rw [hb] at hc
    rcases hc j (mem_columns.2 ⟨h1, hjm⟩) with hr | hs
    · exact absurd ((h.reached j hjm).1 hr) hjt
    · rw [hs] at hx; cases hx

/-! ## Advancing -/

theorem rowReached_iff (h : Explored cost m i t s) (r : ℕ) :
    s.rowReached m r = true ↔ ∃ k ∈ t, s.state.rowAt k = r := by
  simp only [Search.rowReached, List.any_eq_true, List.mem_range, Bool.and_eq_true, beq_iff_eq]
  constructor
  · rintro ⟨k, hk, hr, he⟩; exact ⟨k, (h.reached k (by omega)).1 hr, he⟩
  · rintro ⟨k, hk, he⟩
    have := (h.occupied k hk).1
    exact ⟨k, by omega, (h.reached k this).2 hk, he⟩

/-- The row of a column is that of a reached column only if the column is reached. -/
theorem rowReached_rowAt (h : Explored cost m i t s) {j : ℕ} (hj : j ≤ m) :
    s.rowReached m (s.state.rowAt j) = true ↔ j ∈ t := by
  rw [rowReached_iff h]
  constructor
  · rintro ⟨k, hk, he⟩
    obtain ⟨hkm, hk0⟩ := h.occupied k hk
    have : k = j := h.seats.inj k (by simp; omega) j (by simp; omega) hk0 he
    exact this ▸ hk
  · intro hjt; exact ⟨j, hjt, rfl⟩

theorem u_advance (s : Search) (j : ℕ) (d : ℤ) {r : ℕ} (hr : r ≤ n) :
    (s.advance n m j d).state.u r = s.state.u r + if s.rowReached m r then d else 0 := by
  show (tabulate (n + 1) _).getD r 0 = _
  rw [getD_tabulate, if_pos (by omega)]
  rfl

theorem u_advance_of_lt (s : Search) (j : ℕ) (d : ℤ) {r : ℕ} (hr : n < r) :
    (s.advance n m j d).state.u r = 0 := by
  show (tabulate (n + 1) _).getD r 0 = _
  rw [getD_tabulate, if_neg (by omega)]

theorem v_advance (h : Explored cost m i t s) (j : ℕ) (d : ℤ) {k : ℕ} (hk : k ≤ m) :
    (s.advance n m j d).state.v k = s.state.v k - if k ∈ t then d else 0 := by
  show (tabulate (m + 1) _).getD k 0 = _
  rw [getD_tabulate, if_pos (by omega)]
  by_cases hkt : k ∈ t
  · rw [if_pos ((h.reached k hk).2 hkt), if_pos hkt]; rfl
  · have : ¬ s.reached.getD k false = true := fun e => hkt ((h.reached k hk).1 e)
    rw [if_neg this, if_neg hkt]; rfl

theorem slack_advance (h : Explored cost m i t s) (j : ℕ) (d : ℤ) {k : ℕ} (hk : k ≤ m) (hkt : k ∉ t) :
    (s.advance n m j d).slack.getD k none = (s.slack.getD k none).map (· - d) := by
  show (tabulate (m + 1) _).getD k none = _
  have : ¬ s.reached.getD k false = true := fun e => hkt ((h.reached k hk).1 e)
  rw [getD_tabulate, if_pos (by omega), if_neg this]

/-- Advancing makes pairs of a reached row and a new column cheaper, and those of another row and a
reached column dearer. -/
theorem surplus_advance (h : Explored cost m i t s) (j : ℕ) (d : ℤ) {r k : ℕ} (hr : r ≤ n) (hk : k ≤ m) :
    (s.advance n m j d).state.surplus cost r k =
      s.state.surplus cost r k - (if s.rowReached m r then d else 0) + if k ∈ t then d else 0 := by
  unfold State.surplus
  rw [u_advance s j d hr, v_advance h j d hk]
  ring

theorem surplus_advance_rowAt (h : Explored cost m i t s) (hin : i ≤ n) (j : ℕ) (d : ℤ) {k l : ℕ} (hk : k ∈ t)
    (hl : l ≤ m) : (s.advance n m j d).state.surplus cost (s.state.rowAt k) l =
      if l ∈ t then s.state.surplus cost (s.state.rowAt k) l
      else s.state.surplus cost (s.state.rowAt k) l - d := by
  obtain ⟨hkm, hk0⟩ := h.occupied k hk
  have hle := h.seats.le k (by simp; omega)
  rw [surplus_advance h j d (by omega) hl, if_pos ((rowReached_rowAt h hkm).2 hk)]
  split <;> omega

theorem Explored.dual_advance (h : Explored cost m i t s) (hin : i ≤ n) {j : ℕ} {d : ℤ} (hd : 0 ≤ d)
    (hmin : ∀ k ∈ t, ∀ l, 1 ≤ l → l ≤ m → l ∉ t → d ≤ s.state.surplus cost (s.state.rowAt k) l) :
    Dual cost m i (s.advance n m j d).state := by
  refine ⟨?_, ?_, ?_, ?_, ?_⟩
  · intro r l h1 hri hl1 hlm
    have hf := h.dual.feasible r l h1 hri hl1 hlm
    rw [surplus_advance h j d (by omega) hlm]
    by_cases hr : s.rowReached m r = true
    · obtain ⟨k, hk, rfl⟩ := (rowReached_iff h r).1 hr
      by_cases hlt : l ∈ t
      · rw [if_pos hr, if_pos hlt]; omega
      · have := hmin k hk l hl1 hlm hlt
        rw [if_pos hr, if_neg hlt]; omega
    · rw [if_neg hr]; split <;> omega
  · intro l hl1 hlm hl0
    have ht := h.dual.tight l hl1 hlm hl0
    have hle := h.seats.le l (by simp; omega)
    have hr := rowReached_rowAt h hlm
    show (s.advance n m j d).state.surplus cost (s.state.rowAt l) l = 0
    rw [surplus_advance h j d (by omega) hlm, ht]
    by_cases hlt : l ∈ t
    · rw [if_pos (hr.2 hlt), if_pos hlt]; omega
    · rw [if_neg (fun e => hlt (hr.1 e)), if_neg hlt]; omega
  · intro l hlm
    have := h.dual.nonpos l hlm
    rw [v_advance h j d hlm]
    split <;> omega
  · intro l hl1 hlm hl0
    have hlt : l ∉ t := fun e => (h.occupied l e).2 hl0
    rw [v_advance h j d hlm, if_neg hlt, h.dual.free l hl1 hlm hl0]; rfl
  · intro r hr
    by_cases hrn : r ≤ n
    · have hnot : ¬ s.rowReached m r = true := by
        rw [rowReached_iff h]
        rintro ⟨k, hk, rfl⟩
        have := h.seats.le k (by simp; have := (h.occupied k hk).1; omega)
        omega
      rw [u_advance s j d hrn, if_neg hnot, h.dual.unplaced r hr]; rfl
    · exact u_advance_of_lt s j d (by omega)

/-- The nearest column takes nothing below zero to reach, and no more than any other new one. -/
theorem Explored.nearest_le (h : Explored cost m i t s) (h0 : 0 ∈ t) {j : ℕ} {d : ℤ} (hj : s.nearest m = some (j, d)) :
    0 ≤ d ∧ ∀ k ∈ t, ∀ l, 1 ≤ l → l ≤ m → l ∉ t → d ≤ s.state.surplus cost (s.state.rowAt k) l := by
  obtain ⟨hj1, hjm, hjt, hjd, hjmin⟩ := h.nearest_spec hj
  constructor
  · obtain ⟨x, hx, hp, hxe, -⟩ := h.exists_known h0 hj1 hjm hjt
    obtain ⟨hpm, hp0⟩ := h.occupied _ hp
    have := h.seats.le _ (show s.state.parent j ∈ range (m + 1) by simp; omega)
    rw [hjd] at hx
    rw [Option.some.inj hx, hxe]
    exact h.dual.feasible _ j (by omega) this hj1 hjm
  · intro k hk l hl1 hlm hlt
    obtain ⟨x, hx, -, -, hxk⟩ := h.exists_known h0 hl1 hlm hlt
    exact le_trans (hjmin l hl1 hlm hlt x hx) (hxk k hk)

/-- Going to the nearest column keeps what the search knows. -/
theorem Explored.advance (h : Explored cost m i t s) (h0 : 0 ∈ t) (hin : i ≤ n) {j : ℕ} {d : ℤ}
    (hj : s.nearest m = some (j, d)) : Explored cost m i t (s.advance n m j d) := by
  obtain ⟨hd, hmin⟩ := h.nearest_le h0 hj
  refine ⟨h.seats, h.first, h.dual_advance hin hd hmin, h.reached, h.occupied, ?_⟩
  intro l hl1 hlm hlt
  obtain ⟨y, hy, hpl, hye, hyk⟩ := h.exists_known h0 hl1 hlm hlt
  unfold Known
  rw [slack_advance h j d hlm hlt, hy]
  refine ⟨hpl, ?_, ?_⟩
  · have := surplus_advance_rowAt (n := n) h hin j d hpl hlm
    rw [if_neg hlt] at this
    exact (congrArg (· - d) hye).trans this.symm
  · intro k hk
    have := surplus_advance_rowAt (n := n) h hin j d hk hlm
    rw [if_neg hlt] at this
    exact le_trans (sub_le_sub_right (hyk k hk) d) (le_of_eq this.symm)

/-- Going to the nearest column puts it on the way. -/
theorem Explored.way_advance (h : Explored cost m i t s) (hw : s.Way cost m t) (hin : i ≤ n) {j : ℕ} {d : ℤ}
    (hj : s.nearest m = some (j, d)) : (s.advance n m j d).Way cost m (j :: t) := by
  obtain ⟨hj1, hjm, hjt, hjd, -⟩ := h.nearest_spec hj
  obtain ⟨x, hx, hp, hxe, -⟩ := h.exists_known hw.zero_mem hj1 hjm hjt
  have hxd : x = d := by rw [hjd] at hx; exact (Option.some.inj hx).symm
  have same : ∀ k ∈ t, ∀ l ∈ t, Fits cost s.state s.state.rowAt k l →
      Fits cost (s.advance n m j d).state s.state.rowAt k l := by
    intro k hk l hl hf
    refine ⟨hf.1, ?_⟩
    rw [surplus_advance_rowAt h hin j d hk (hw.le l hl), if_pos hl]
    exact hf.2
  refine .step (hw.congr (fun _ _ => rfl) same) hjt hj1 hjm hp ⟨(h.occupied _ hp).2, ?_⟩
  show (s.advance n m j d).state.surplus cost (s.state.rowAt (s.state.parent j)) j = 0
  rw [surplus_advance_rowAt h hin j d hp hjm, if_neg hjt, ← hxe, hxd]
  exact sub_self d

/-! ## A whole search -/

/-- A pass that starts at an occupied column reaches one more column. -/
theorem Explored.step (h : Explored cost m i t s) (hw : s.Way cost m (s.column :: t)) (hr : s.row ≠ 0)
    (hin : i ≤ n) (him : i ≤ m) :
    ∃ s', s.step cost n m = some s' ∧ Explored cost m i (s.column :: t) s' ∧
      s'.Way cost m (s'.column :: s.column :: t) := by
  have h1 := h.relax hw hr
  have hw1 := h.way_relax hw
  obtain ⟨j, d, hj⟩ := h1.nearest_isSome hw1.nodup hw1.zero_mem him
  refine ⟨((s.mark m).relax cost m).advance n m j d, ?_, h1.advance hw1.zero_mem hin hj, h1.way_advance hw1 hin hj⟩
  simp only [Search.step, hj, Option.map_some]

/-- **Search.** The passes end at a free column. -/
theorem Explored.run (hin : i ≤ n) (him : i ≤ m) : ∀ (bound : ℕ) {t : List ℕ} {s : Search},
    Explored cost m i t s → s.Way cost m (s.column :: t) → s.row ≠ 0 → i ≤ bound + t.length →
    ∃ t', Explored cost m i t' (s.run cost n m bound) ∧
      (s.run cost n m bound).Way cost m ((s.run cost n m bound).column :: t') ∧ (s.run cost n m bound).row = 0
  | 0, t, s, h, hw, hr, hb => by
    have := (h.relax hw hr).length_le hw.nodup
    simp only [List.length_cons] at this
    omega
  | bound + 1, t, s, h, hw, hr, hb => by
    obtain ⟨s', hs, h', hw'⟩ := h.step hw hr hin him
    have hrun : s.run cost n m (bound + 1) = if s'.row = 0 then s' else s'.run cost n m bound := by
      simp only [Search.run, hs]
    rw [hrun]
    by_cases h0 : s'.row = 0
    · rw [if_pos h0]; exact ⟨_, h', hw', h0⟩
    · rw [if_neg h0]
      exact Explored.run hin him bound h' hw' h0 (by simp only [List.length_cons]; omega)

end

end Assay.Assignment
