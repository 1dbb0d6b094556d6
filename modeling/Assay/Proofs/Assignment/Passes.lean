import Assay.Proofs.Assignment.Problems

/-!
# The passes of a search

A search goes from column to column until it reaches a free one, and from there the way back is followed until it
reaches column zero. Both loops are run with a bound, and the bound never ends them: each pass reaches a new column
(`Pass`), the columns that are reached hold different rows, so there are no more passes than rows to be placed
(`Explored.exists_passes`); and each column on the way back was reached later than the next one (`Trail.exists_visits`),
whatever the searches for earlier rows have left behind. With any greater bound the outcome is the same
(`Passes.run_eq`, `Visits.shift_eq`).
-/

namespace Assay.Assignment

open Finset

/-- A pass that starts at an occupied column: some column is not reached yet, the nearest of these takes a number to
reach, and the search goes there. -/
structure Pass (cost : ℕ → ℕ → ℤ) (n m : ℕ) (s s' : Search) : Prop where
  occupied : s.row ≠ 0
  left : ∃ j, 1 ≤ j ∧ j ≤ m ∧ (s.mark m).reached.getD j false = false
  nearest : ∃ delta, ((s.mark m).relax cost m).nearest m = some (s'.column, delta)
  new : 1 ≤ s'.column ∧ s'.column ≤ m ∧ (s.mark m).reached.getD s'.column false = false
  step : s.step cost n m = some s'

/-- Passes from one search to another, each but the last to an occupied column and the last to a free one. -/
inductive Passes (cost : ℕ → ℕ → ℤ) (n m : ℕ) : ℕ → Search → Search → Prop
  | last {s s' : Search} : Pass cost n m s s' → s'.row = 0 → Passes cost n m 1 s s'
  | next {count : ℕ} {s s' found : Search} : Pass cost n m s s' → s'.row ≠ 0 → Passes cost n m count s' found →
      Passes cost n m (count + 1) s found

/-- The columns that the way back visits from a column on, down to column zero. -/
inductive Visits (parent : ℕ → ℕ) : ℕ → List ℕ → Prop
  | stop : Visits parent 0 [0]
  | go {j : ℕ} {way : List ℕ} : j ≠ 0 → Visits parent (parent j) way → Visits parent j (j :: way)

/-- Every column of a way takes the row of the column after it. -/
def handOver : List ℕ → Array ℕ → Array ℕ
  | j :: k :: way, rowOf => handOver (k :: way) (rowOf.setIfInBounds j (rowOf.getD k 0))
  | _, rowOf => rowOf

/-- Row `i` is placed by `count` passes, which end at a free column, and by handing rows over on the way back. -/
structure Placing (cost : ℕ → ℕ → ℤ) (n m i : ℕ) (before after : State) (count : ℕ) (found : Search)
    (way : List ℕ) : Prop where
  few : count ≤ i
  passes : Passes cost n m count (Search.start m i before) found
  free : found.row = 0
  run_eq : ∀ bound, count ≤ bound → (Search.start m i before).run cost n m bound = found
  visits : Visits found.state.parent found.column way
  nodup : way.Nodup
  le : ∀ j ∈ way, j ≤ m
  shift_eq : ∀ bound, way.length ≤ bound →
    shift found.state.cameFrom bound found.column found.state.rowOf = handOver way found.state.rowOf
  result : after = { found.state with rowOf := handOver way found.state.rowOf }

section
variable {cost : ℕ → ℕ → ℤ} {n m i k count : ℕ} {t : List ℕ} {s found : Search}

/-! ## Going forth -/

theorem Passes.row_eq_zero (h : Passes cost n m count s found) : found.row = 0 := by
  induction h with
  | last _ h0 => exact h0
  | next _ _ _ ih => exact ih

/-- A bound that leaves room for the passes does not end them. -/
theorem Passes.run_eq (h : Passes cost n m count s found) :
    ∀ bound, count ≤ bound → s.run cost n m bound = found := by
  induction h with
  | last hpass h0 =>
    intro bound hb
    obtain ⟨b, rfl⟩ : ∃ b, bound = b + 1 := ⟨bound - 1, by omega⟩
    simp only [Search.run, hpass.step, if_pos h0]
  | next hpass h0 _ ih =>
    intro bound hb
    obtain ⟨b, rfl⟩ : ∃ b, bound = b + 1 := ⟨bound - 1, by omega⟩
    simp only [Search.run, hpass.step, if_neg h0]
    exact ih b (by omega)

/-- From an occupied column a search makes one more pass, as long as there are no more rows than columns. -/
theorem Explored.exists_pass (h : Explored cost m i t s) (hw : s.Way cost m (s.column :: t)) (hr : s.row ≠ 0)
    (hin : i ≤ n) (him : i ≤ m) : ∃ s', Pass cost n m s s' ∧ Explored cost m i (s.column :: t) s' ∧
      s'.Way cost m (s'.column :: s.column :: t) := by
  obtain ⟨s', hs, h', hw'⟩ := h.step hw hr hin him
  obtain ⟨hnew, -⟩ := List.nodup_cons.1 hw'.nodup
  have hm : s'.column ≤ m := hw'.le _ List.mem_cons_self
  have h1 : 1 ≤ s'.column := by
    by_contra h0
    exact hnew (by rw [show s'.column = 0 by omega]; exact hw.zero_mem)
  have hreached : (s.mark m).reached.getD s'.column false = false := by
    have hiff := (h.relax hw hr).reached s'.column hm
    rw [← Bool.not_eq_true]
    exact fun e => hnew (hiff.1 e)
  refine ⟨s', ⟨hr, ⟨s'.column, h1, hm, hreached⟩, ?_, ⟨h1, hm, hreached⟩, hs⟩, h', hw'⟩
  obtain ⟨⟨j, delta⟩, hnearest, rfl⟩ := Option.map_eq_some_iff.1 hs
  exact ⟨delta, hnearest⟩

/-- **Forth.** Together with the columns that are reached already, there are no more passes than rows to be placed. -/
theorem Explored.exists_passes (hin : i ≤ n) (him : i ≤ m) : ∀ (bound : ℕ) {t : List ℕ} {s : Search},
    Explored cost m i t s → s.Way cost m (s.column :: t) → s.row ≠ 0 → i ≤ bound + t.length →
    ∃ count found t', count + t.length ≤ i ∧ Passes cost n m count s found ∧ Explored cost m i t' found ∧
      found.Way cost m (found.column :: t')
  | 0, t, s, h, hw, hr, hb => by
    have := (h.relax hw hr).length_le hw.nodup
    simp only [List.length_cons] at this
    omega
  | bound + 1, t, s, h, hw, hr, hb => by
    obtain ⟨s', hpass, h', hw'⟩ := h.exists_pass hw hr hin him
    have hlength := h'.length_le hw.nodup
    rw [List.length_cons] at hlength
    by_cases h0 : s'.row = 0
    · exact ⟨1, s', _, by omega, .last hpass h0, h', hw'⟩
    · obtain ⟨count, found, t', hcount, hpasses, hfound⟩ :=
        Explored.exists_passes hin him bound h' hw' h0 (by rw [List.length_cons]; omega)
      rw [List.length_cons] at hcount
      exact ⟨count + 1, found, t', by omega, .next hpass h0 hpasses, hfound⟩

/-! ## And back -/

/-- **Back.** From each column of a trail the way back visits columns of the trail, in their order. -/
theorem Trail.exists_visits {parent : ℕ → ℕ} {ok : ℕ → ℕ → Prop} (h : Trail m parent ok t) :
    ∀ j ∈ t, ∃ way, Visits parent j way ∧ way.Sublist t := by
  induction h with
  | start =>
    intro j hj
    obtain rfl := List.mem_singleton.1 hj
    exact ⟨[0], .stop, List.Sublist.refl _⟩
  | @step j t _ _ h1 _ hp _ ih =>
    intro k hk
    rcases List.mem_cons.1 hk with rfl | hk
    · obtain ⟨way, hvisits, hsub⟩ := ih _ hp
      exact ⟨k :: way, .go (by omega) hvisits, hsub.cons_cons k⟩
    · obtain ⟨way, hvisits, hsub⟩ := ih k hk
      exact ⟨way, hvisits, hsub.cons j⟩

theorem Visits.exists_cons {parent : ℕ → ℕ} {j : ℕ} {way : List ℕ} (h : Visits parent j way) :
    ∃ rest, way = j :: rest := by
  cases h with
  | stop => exact ⟨[], rfl⟩
  | go => exact ⟨_, rfl⟩

/-- A bound that leaves room for the way back does not end it. -/
theorem Visits.shift_eq {cameFrom : Array ℕ} {j : ℕ} {way : List ℕ} (h : Visits (cameFrom.getD · 0) j way) :
    ∀ (bound : ℕ) (rowOf : Array ℕ), way.length ≤ bound → shift cameFrom bound j rowOf = handOver way rowOf := by
  induction h with
  | stop =>
    intro bound rowOf _
    cases bound <;> rfl
  | @go j way h0 hvisits ih =>
    intro bound rowOf hb
    obtain ⟨b, rfl⟩ : ∃ b, bound = b + 1 := ⟨bound - 1, by simp at hb; omega⟩
    obtain ⟨rest, rfl⟩ := hvisits.exists_cons
    rw [shift, if_neg h0, handOver]
    exact ih b _ (by simpa using hb)

/-! ## Placing a row -/

theorem Placed.exists_placing {s : State} (P : Placed cost m k s) (hkn : k + 1 ≤ n) (hkm : k + 1 ≤ m)
    (hcost : ∀ j, 1 ≤ j → j ≤ m → 0 ≤ cost (k + 1) j) :
    ∃ count found way, Placing cost n m (k + 1) s (s.place cost n m (k + 1)) count found way := by
  have hrow : (Search.start m (k + 1) s).row ≠ 0 := by
    show (Search.start m (k + 1) s).state.rowAt 0 ≠ 0
    rw [rowAt_start P, if_pos rfl]
    omega
  obtain ⟨count, found, t, hcount, hpasses, -, hw⟩ :=
    (P.explored hcost).exists_passes hkn hkm (k + 1) .start hrow (by simp)
  obtain ⟨way, hvisits, hsub⟩ := hw.exists_visits _ List.mem_cons_self
  have hlength : way.length ≤ m + 1 := hsub.length_le.trans hw.length_le
  rw [List.length_nil, Nat.add_zero] at hcount
  refine ⟨count, found, way, hcount, hpasses, hpasses.row_eq_zero, hpasses.run_eq, hvisits, hw.nodup.sublist hsub,
    fun j hj => hw.le j (hsub.subset hj), fun bound => hvisits.shift_eq bound _, ?_⟩
  unfold State.place
  simp only [hpasses.run_eq (m + 1) (by omega), hvisits.shift_eq (m + 1) _ hlength]

/-- **Both loops end.** For every matrix with a positive entry and every row of its problem: the search that places the
row makes no more passes than there are rows so far, each to a new column that takes a number to reach, and ends at a
free column. From there the way back visits different columns, the last of them column zero. What the row leaves behind
is what was found, with the rows handed over on this way, and no bound has a part in it. -/
theorem searches_end {rows : List (List ℤ)} (h : ∀ r ∈ rows, r.length = m) (hpos : ∃ r ∈ rows, ∃ x ∈ r, 0 < x)
    (hi1 : 1 ≤ i) (hi : i ≤ (Problem.ofMatrix rows m).rows) :
    ∃ count found way, Placing (Problem.ofMatrix rows m).cost (Problem.ofMatrix rows m).rows
      (Problem.ofMatrix rows m).columns i ((Problem.ofMatrix rows m).after (i - 1)) ((Problem.ofMatrix rows m).after i)
      count found way := by
  have hp := isSound_ofMatrix h hpos
  obtain ⟨k, rfl⟩ : ∃ k, i = k + 1 := ⟨i - 1, by omega⟩
  have hcolumns := hp.rows_le
  exact (hp.placed (by omega)).exists_placing hi (by omega) fun j hj1 hjm =>
    hp.cost_nonneg (by omega) hi hj1 hjm

/-- Three rows and two columns are laid on their side, so that two rows are placed in three columns. -/
theorem searches_end_tall : (∀ r ∈ [[4, 6], [-1, 5], [3, 0]], r.length = 2) ∧
    (∃ r ∈ [[4, 6], [-1, 5], [3, 0]], ∃ x ∈ r, (0 : ℤ) < x) ∧
    1 ≤ 2 ∧ 2 ≤ (Problem.ofMatrix [[4, 6], [-1, 5], [3, 0]] 2).rows ∧
    ∃ count found way, Placing (Problem.ofMatrix [[4, 6], [-1, 5], [3, 0]] 2).cost 2 3 2
      ((Problem.ofMatrix [[4, 6], [-1, 5], [3, 0]] 2).after 1)
      ((Problem.ofMatrix [[4, 6], [-1, 5], [3, 0]] 2).after 2) count found way := by
  have h : ∀ r ∈ [[4, 6], [-1, 5], [3, 0]], r.length = 2 := by decide
  have hpos : ∃ r ∈ [[4, 6], [-1, 5], [3, 0]], ∃ x ∈ r, (0 : ℤ) < x := by decide
  have hi : 2 ≤ (Problem.ofMatrix [[4, 6], [-1, 5], [3, 0]] 2).rows := by decide
  exact ⟨h, hpos, by decide, hi, searches_end h hpos (by decide) hi⟩

end

end Assay.Assignment
