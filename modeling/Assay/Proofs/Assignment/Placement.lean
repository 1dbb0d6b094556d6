import Assay.Proofs.Assignment.Search

/-!
# Placing a row

The way back from a free column hands every row on it to the column that it was reached from. While
that goes on one column is a hole: all others hold the rows `1 … i`, each once (`Holed`). The hole moves
from the free column to column zero, which leaves the row that was there in a column of its own. So
every row that is placed adds itself and disturbs none, and the potentials keep proving the chosen pairs
cheapest (`after_placed`).
-/

namespace Assay.Assignment

open Finset

/-- The rows `1 … k` are placed, and the potentials prove their pairs cheapest. -/
structure Placed (cost : ℕ → ℕ → ℤ) (m k : ℕ) (s : State) : Prop where
  size : s.rowOf.size = m + 1
  seats : Seats (Icc 1 m) k s.rowAt
  dual : Dual cost m k s
  /-- Some column has no potential. -/
  level : ∃ j, 1 ≤ j ∧ j ≤ m ∧ s.v j = 0

/-- All columns but `hole` hold the rows `1 … i`, and the potentials of `s` prove their pairs cheapest. -/
structure Holed (cost : ℕ → ℕ → ℤ) (m i : ℕ) (s : State) (hole : ℕ) (rowOf : Array ℕ) : Prop where
  size : rowOf.size = m + 1
  seats : Seats ((range (m + 1)).erase hole) i (rowOf.getD · 0)
  tight : ∀ j, 1 ≤ j → j ≤ m → j ≠ hole → rowOf.getD j 0 ≠ 0 → s.surplus cost (rowOf.getD j 0) j = 0
  free : ∀ j, 1 ≤ j → j ≤ m → j ≠ hole → rowOf.getD j 0 = 0 → s.v j = 0

theorem getD_set_self {rowOf : Array ℕ} {j : ℕ} (hj : j < rowOf.size) (r : ℕ) :
    (rowOf.setIfInBounds j r).getD j 0 = r := by
  simp [Array.getD_eq_getD_getElem?, hj]

theorem getD_set_ne {rowOf : Array ℕ} {j k : ℕ} (hjk : j ≠ k) (r : ℕ) :
    (rowOf.setIfInBounds j r).getD k 0 = rowOf.getD k 0 := by
  simp [Array.getD_eq_getD_getElem?, Array.getElem?_setIfInBounds_ne hjk]

section
variable {cost : ℕ → ℕ → ℤ} {n m i k : ℕ} {s : State}

/-! ## The way back -/

/-- A hole moves to a column that hands its row over. -/
theorem Seats.move {C : Finset ℕ} {row row' : ℕ → ℕ} {h : ℕ} (S : Seats (C.erase h) i row) (hh : h ∈ C) (hk : k ∈ C)
    (hne : k ≠ h) (hself : row' h = row k) (hother : ∀ j, j ≠ h → row' j = row j) : Seats (C.erase k) i row' := by
  have kmem : k ∈ C.erase h := mem_erase.2 ⟨hne, hk⟩
  refine ⟨?_, ?_, ?_⟩
  · intro j hj
    by_cases hjh : j = h
    · rw [hjh, hself]; exact S.le k kmem
    · rw [hother j hjh]; exact S.le j (mem_erase.2 ⟨hjh, mem_of_mem_erase hj⟩)
  · intro j hj j' hj' h0 he
    obtain ⟨hjk, hjC⟩ := mem_erase.1 hj
    obtain ⟨hjk', hjC'⟩ := mem_erase.1 hj'
    by_cases hjh : j = h <;> by_cases hjh' : j' = h
    · rw [hjh, hjh']
    · rw [hjh, hself] at h0 he
      rw [hother j' hjh'] at he
      exact absurd (S.inj k kmem j' (mem_erase.2 ⟨hjh', hjC'⟩) h0 he).symm hjk'
    · rw [hother j hjh] at h0 he
      rw [hjh', hself] at he
      exact absurd (S.inj j (mem_erase.2 ⟨hjh, hjC⟩) k kmem h0 he) hjk
    · rw [hother j hjh] at h0 he
      rw [hother j' hjh'] at he
      exact S.inj j (mem_erase.2 ⟨hjh, hjC⟩) j' (mem_erase.2 ⟨hjh', hjC'⟩) h0 he
  · intro r hr1 hri
    obtain ⟨j, hj, hjr⟩ := S.onto r hr1 hri
    obtain ⟨hjh, hjC⟩ := mem_erase.1 hj
    by_cases hjk : j = k
    · exact ⟨h, mem_erase.2 ⟨hne.symm, hh⟩, by rw [hself, ← hjk, hjr]⟩
    · exact ⟨j, mem_erase.2 ⟨hjk, hjC⟩, by rw [hother j hjh, hjr]⟩

/-- Handing the row of `k` to the hole `h` moves the hole to `k`. -/
theorem Holed.move {rowOf : Array ℕ} {h : ℕ} (H : Holed cost m i s h rowOf) (h1 : 1 ≤ h) (hm : h ≤ m)
    (hkm : k ≤ m) (hne : k ≠ h) (hf : Fits cost s (rowOf.getD · 0) k h) :
    Holed cost m i s k (rowOf.setIfInBounds h (rowOf.getD k 0)) := by
  have hself : (rowOf.setIfInBounds h (rowOf.getD k 0)).getD h 0 = rowOf.getD k 0 :=
    getD_set_self (by rw [H.size]; omega) _
  have hother : ∀ j, j ≠ h → (rowOf.setIfInBounds h (rowOf.getD k 0)).getD j 0 = rowOf.getD j 0 :=
    fun j hj => getD_set_ne hj.symm _
  refine ⟨by simpa using H.size, ?_, ?_, ?_⟩
  · exact H.seats.move (mem_range.2 (by omega)) (mem_range.2 (by omega)) hne hself hother
  · intro j hj1 hjm hjk h0
    by_cases hjh : j = h
    · subst hjh; rw [hself]; exact hf.2
    · rw [hother j hjh] at h0 ⊢; exact H.tight j hj1 hjm hjh h0
  · intro j hj1 hjm hjk h0
    by_cases hjh : j = h
    · subst hjh; rw [hself] at h0; exact absurd h0 hf.1
    · rw [hother j hjh] at h0; exact H.free j hj1 hjm hjh h0

/-- The way back takes the hole to column zero. -/
theorem Holed.shift : ∀ {t : List ℕ} {rowOf : Array ℕ} {h : ℕ} (bound : ℕ),
    Trail m s.parent (Fits cost s (rowOf.getD · 0)) t → h ∈ t → t.length ≤ bound →
    Holed cost m i s h rowOf → Holed cost m i s 0 (shift s.cameFrom bound h rowOf)
  | [], _, _, _, _, hmem, _, _ => by cases hmem
  | j :: t, rowOf, h, bound, hw, hmem, hb, H => by
    cases hw with
    | start =>
      obtain rfl := List.mem_singleton.1 hmem
      cases bound <;> exact H
    | step hw hjt h1 hm hp hf =>
      simp only [List.length_cons] at hb
      rcases List.mem_cons.1 hmem with rfl | hmem
      · obtain ⟨b, rfl⟩ : ∃ b, bound = b + 1 := ⟨bound - 1, by omega⟩
        have hne : s.parent h ≠ h := fun e => hjt (e ▸ hp)
        have hw' : Trail m s.parent (Fits cost s
            ((rowOf.setIfInBounds h (rowOf.getD (s.parent h) 0)).getD · 0)) t := by
          refine hw.congr (fun _ _ => rfl) ?_
          intro k hk l _ hkl
          have hkh : h ≠ k := fun e => hjt (e ▸ hk)
          unfold Fits at hkl ⊢
          simp only [getD_set_ne hkh]
          exact hkl
        have := Holed.shift b hw' hp (by omega) (H.move h1 hm (hw.le _ hp) hne hf)
        rw [Assignment.shift, if_neg (by omega)]
        exact this
      · exact Holed.shift bound hw hmem (by omega) H

/-! ## One row -/

theorem rowAt_start (P : Placed cost m k s) (i j : ℕ) :
    (Search.start m i s).state.rowAt j = if j = 0 then i else s.rowAt j := by
  show (s.rowOf.setIfInBounds 0 i).getD j 0 = _
  by_cases hj : j = 0
  · rw [hj, if_pos rfl]; exact getD_set_self (by rw [P.size]; omega) _
  · rw [if_neg hj]; exact getD_set_ne (fun e => hj e.symm) _

/-- With the next row in column zero, that row is seated too. -/
theorem Placed.seats_start (P : Placed cost m k s) :
    Seats (range (m + 1)) (k + 1) (Search.start m (k + 1) s).state.rowAt := by
  have hrow := rowAt_start P (k + 1)
  have hpos : ∀ j, j ≠ 0 → (Search.start m (k + 1) s).state.rowAt j = s.rowAt j := fun j hj => by
    rw [hrow, if_neg hj]
  have h0 : (Search.start m (k + 1) s).state.rowAt 0 = k + 1 := by rw [hrow, if_pos rfl]
  have mem : ∀ {j : ℕ}, j ∈ range (m + 1) → j ≠ 0 → j ∈ Icc 1 m := by
    intro j hj hj0; rw [mem_range] at hj; rw [mem_Icc]; omega
  refine ⟨?_, ?_, ?_⟩
  · intro j hj
    by_cases hj0 : j = 0
    · rw [hj0, h0]
    · rw [hpos j hj0]; have := P.seats.le j (mem hj hj0); omega
  · intro j hj j' hj' hne he
    by_cases hj0 : j = 0 <;> by_cases hj0' : j' = 0
    · rw [hj0, hj0']
    · rw [hj0, h0, hpos j' hj0'] at he
      have := P.seats.le j' (mem hj' hj0'); omega
    · rw [hj0', h0, hpos j hj0] at he
      have := P.seats.le j (mem hj hj0); omega
    · rw [hpos j hj0] at hne he
      rw [hpos j' hj0'] at he
      exact P.seats.inj j (mem hj hj0) j' (mem hj' hj0') hne he
  · intro r hr1 hrk
    by_cases hr : r = k + 1
    · exact ⟨0, by simp, by rw [h0, hr]⟩
    · obtain ⟨j, hj, hjr⟩ := P.seats.onto r hr1 (by omega)
      rw [mem_Icc] at hj
      exact ⟨j, by rw [mem_range]; omega, by rw [hpos j (by omega), hjr]⟩

/-- The next row starts without a potential, so it costs no less than the columns allow. -/
theorem Placed.dual_start (P : Placed cost m k s) (hcost : ∀ j, 1 ≤ j → j ≤ m → 0 ≤ cost (k + 1) j) :
    Dual cost m (k + 1) (Search.start m (k + 1) s).state := by
  have hpos : ∀ j, 1 ≤ j → (Search.start m (k + 1) s).state.rowAt j = s.rowAt j := fun j hj => by
    rw [rowAt_start P, if_neg (by omega)]
  refine ⟨?_, ?_, P.dual.nonpos, ?_, ?_⟩
  · intro r j hr1 hrk hj1 hjm
    show 0 ≤ s.surplus cost r j
    by_cases hr : r = k + 1
    · have hu := P.dual.unplaced r (by omega)
      have hv := P.dual.nonpos j hjm
      have := hcost j hj1 hjm
      unfold State.surplus
      rw [hu, hr]; omega
    · exact P.dual.feasible r j hr1 (by omega) hj1 hjm
  · intro j hj1 hjm hne
    rw [hpos j hj1] at hne ⊢
    exact P.dual.tight j hj1 hjm hne
  · intro j hj1 hjm he
    rw [hpos j hj1] at he
    exact P.dual.free j hj1 hjm he
  · intro r hr; exact P.dual.unplaced r (by omega)

/-- The search for the next row starts with that row in column zero and nothing reached. -/
theorem Placed.explored (P : Placed cost m k s) (hcost : ∀ j, 1 ≤ j → j ≤ m → 0 ≤ cost (k + 1) j) :
    Explored cost m (k + 1) [] (Search.start m (k + 1) s) := by
  refine ⟨P.seats_start, by rw [rowAt_start P, if_pos rfl], P.dual_start hcost, ?_, by simp, ?_⟩
  · intro j hj
    show (tabulate (m + 1) _).getD j false = true ↔ j ∈ []
    rw [getD_tabulate, if_pos (by omega)]
    simp
  · intro j _ hjm _
    unfold Known
    have : (Search.start m (k + 1) s).slack.getD j none = none := by
      show (tabulate (m + 1) _).getD j none = none
      rw [getD_tabulate, if_pos (by omega)]
    rw [this]

/-- A search keeps the number of columns. -/
theorem size_run (cost : ℕ → ℕ → ℤ) (n m : ℕ) : ∀ (bound : ℕ) (s : Search),
    (s.run cost n m bound).state.rowOf.size = s.state.rowOf.size
  | 0, _ => rfl
  | bound + 1, s => by
    rw [Search.run]
    cases hs : s.step cost n m with
    | none => rfl
    | some s' =>
      have hrow : s'.state.rowOf = s.state.rowOf := by
        unfold Search.step at hs
        obtain ⟨_, _, rfl⟩ := Option.map_eq_some_iff.1 hs
        rfl
      simp only
      split
      · rw [hrow]
      · rw [size_run cost n m bound s', hrow]

/-- A free column that a search ends at is a hole. -/
theorem Explored.holed {t : List ℕ} {f : Search} (h : Explored cost m i t f) (hsize : f.state.rowOf.size = m + 1)
    (hfree : f.row = 0) : Holed cost m i f.state f.column f.state.rowOf := by
  refine ⟨hsize, ⟨?_, ?_, ?_⟩, ?_, ?_⟩
  · exact fun j hj => h.seats.le j (mem_of_mem_erase hj)
  · exact fun j hj j' hj' => h.seats.inj j (mem_of_mem_erase hj) j' (mem_of_mem_erase hj')
  · intro r hr1 hri
    obtain ⟨j, hj, hjr⟩ := h.seats.onto r hr1 hri
    refine ⟨j, mem_erase.2 ⟨?_, hj⟩, hjr⟩
    rintro rfl
    have : f.row = r := hjr
    omega
  · exact fun j hj1 hjm _ h0 => h.dual.tight j hj1 hjm h0
  · exact fun j hj1 hjm _ h0 => h.dual.free j hj1 hjm h0

/-- **One row.** Placing the next row keeps those that are placed. -/
theorem Placed.place (P : Placed cost m k s) (hkn : k + 1 ≤ n) (hkm : k + 1 ≤ m)
    (hcost : ∀ j, 1 ≤ j → j ≤ m → 0 ≤ cost (k + 1) j) : Placed cost m (k + 1) (s.place cost n m (k + 1)) := by
  have h0 := P.explored hcost
  have hrow : (Search.start m (k + 1) s).row ≠ 0 := by
    show (Search.start m (k + 1) s).state.rowAt 0 ≠ 0
    rw [rowAt_start P, if_pos rfl]; omega
  obtain ⟨t, h, hw, hfree⟩ := h0.run hkn hkm (m + 1) .start hrow (by omega)
  have hsize : ((Search.start m (k + 1) s).run cost n m (m + 1)).state.rowOf.size = m + 1 := by
    rw [size_run]; show (s.rowOf.setIfInBounds 0 (k + 1)).size = m + 1; simpa using P.size
  unfold State.place
  generalize (Search.start m (k + 1) s).run cost n m (m + 1) = f at h hw hfree hsize
  have hcolm : f.column ≤ m := hw.le _ (List.mem_cons_self ..)
  have hcol : 1 ≤ f.column := by
    by_contra hlt
    have hr : f.state.rowAt f.column = k + 1 := by rw [show f.column = 0 by omega]; exact h.first
    have : f.state.rowAt f.column = 0 := hfree
    omega
  have H := Holed.shift (m + 1) hw (List.mem_cons_self ..) hw.length_le (h.holed hsize hfree)
  have herase : (range (m + 1)).erase 0 = Icc 1 m := by
    ext j; rw [mem_erase, mem_range, mem_Icc]; omega
  refine ⟨H.size, herase ▸ H.seats, ⟨h.dual.feasible, ?_, h.dual.nonpos, ?_, h.dual.unplaced⟩, ?_⟩
  · exact fun j hj1 hjm h0 => H.tight j hj1 hjm (by omega) h0
  · exact fun j hj1 hjm h0 => H.free j hj1 hjm (by omega) h0
  · exact ⟨f.column, hcol, hcolm, h.dual.free _ hcol hcolm hfree⟩

/-- Before the first row no column is taken and no potential is set. -/
theorem placed_initial (cost : ℕ → ℕ → ℤ) (n : ℕ) (hm : 1 ≤ m) : Placed cost m 0 (.initial n m) := by
  have hu : ∀ i, (State.initial n m).u i = 0 := fun i => by
    show (tabulate (n + 1) _).getD i 0 = 0
    rw [getD_tabulate]; split <;> rfl
  have hv : ∀ j, (State.initial n m).v j = 0 := fun j => by
    show (tabulate (m + 1) _).getD j 0 = 0
    rw [getD_tabulate]; split <;> rfl
  have hrow : ∀ j, (State.initial n m).rowAt j = 0 := fun j => by
    show (tabulate (m + 1) _).getD j 0 = 0
    rw [getD_tabulate]; split <;> rfl
  refine ⟨by simp [State.initial, tabulate], ⟨?_, ?_, ?_⟩, ⟨?_, ?_, ?_, ?_, ?_⟩, 1, le_refl 1, hm, hv 1⟩
  · exact fun j _ => le_of_eq (hrow j)
  · exact fun j _ _ _ h0 => absurd (hrow j) h0
  · intro i h1 h0; omega
  · intro i _ h1 h0; omega
  · exact fun j _ _ h0 => absurd (hrow j) h0
  · exact fun j _ => le_of_eq (hv j)
  · exact fun j _ _ _ => hv j
  · exact fun i _ => hu i

/-- **All rows.** After each row, all rows so far are placed. -/
theorem after_placed (hnm : n ≤ m) (hm : 1 ≤ m)
    (hcost : ∀ i j, 1 ≤ i → i ≤ n → 1 ≤ j → j ≤ m → 0 ≤ cost i j) :
    ∀ k ≤ n, Placed cost m k (State.after cost n m k)
  | 0, _ => placed_initial cost n hm
  | k + 1, hk =>
    (after_placed hnm hm hcost k (by omega)).place hk (by omega)
      fun j => hcost (k + 1) j (by omega) hk

end

end Assay.Assignment
