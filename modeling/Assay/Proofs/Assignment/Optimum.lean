import Assay.Proofs.Assignment.Placement
import Assay.Proofs.Heaviest

/-!
# Assignments of greatest weight

The potentials that the placed rows leave behind bound the weight of every matching, and the chosen
pairs reach the bound. Here a column without a row matters: its potential is zero, so columns that no
row takes add nothing to the bound, however many more columns than rows there are. The main result is
`heaviest_solve`, for any number of rows and columns.
-/

namespace Assay.Assignment

open Finset

/-- The positions of a matrix. -/
def grid (n m : ℕ) : Pairs := range n ×ˢ range m

theorem mem_grid {n m : ℕ} {p : ℕ × ℕ} : p ∈ grid n m ↔ p.1 < n ∧ p.2 < m := by simp [grid]

theorem fst_lt_of_subset_grid {n m i : ℕ} {M : Pairs} (hM : M ⊆ grid n m) (hi : i ∈ firsts M) : i < n := by
  obtain ⟨j, hp⟩ := mem_firsts.1 hi
  exact (mem_grid.1 (hM hp)).1

theorem snd_lt_of_subset_grid {n m j : ℕ} {M : Pairs} (hM : M ⊆ grid n m) (hj : j ∈ seconds M) : j < m := by
  obtain ⟨i, hp⟩ := mem_seconds.1 hj
  exact (mem_grid.1 (hM hp)).2

/-! ## Potentials bound every matching -/

/-- Potentials `x` of the rows and `y` of the columns that prove the pairs `A` of weight `w` heaviest. -/
structure Certificate (n m : ℕ) (top : ℤ) (w : ℕ × ℕ → ℤ) (A : Pairs) (x y : ℕ → ℤ) : Prop where
  oneToOne : OneToOne A
  rows : firsts A = range n
  columns : seconds A ⊆ range m
  nonneg : ∀ p ∈ grid n m, 0 ≤ w p
  feasible : ∀ p ∈ grid n m, x p.1 + y p.2 ≤ top - w p
  tight : ∀ p ∈ A, x p.1 + y p.2 = top - w p
  nonpos : ∀ j < m, y j ≤ 0
  free : ∀ j < m, j ∉ seconds A → y j = 0
  level : ∃ j < m, y j = 0

theorem Certificate.row_le {n m : ℕ} {top : ℤ} {w : ℕ × ℕ → ℤ} {A : Pairs} {x y : ℕ → ℤ}
    (C : Certificate n m top w A x y) {i : ℕ} (hi : i < n) : x i ≤ top := by
  obtain ⟨j, hj, hy⟩ := C.level
  have hp : (i, j) ∈ grid n m := mem_grid.2 ⟨hi, hj⟩
  have h1 := C.nonneg _ hp
  have h2 := C.feasible _ hp
  simp only at h1 h2
  omega

/-- **Duality.** No matching weighs more than the pairs that the potentials prove heaviest. -/
theorem Certificate.sum_le {n m : ℕ} {top : ℤ} {w : ℕ × ℕ → ℤ} {A Q : Pairs} {x y : ℕ → ℤ}
    (C : Certificate n m top w A x y) (hQ : Q ⊆ grid n m) (oQ : OneToOne Q) :
    ∑ p ∈ Q, w p ≤ ∑ p ∈ A, w p := by
  have hrows : firsts Q ⊆ range n := fun i hi => mem_range.2 (fst_lt_of_subset_grid hQ hi)
  have hcols : seconds Q ⊆ range m := fun j hj => mem_range.2 (snd_lt_of_subset_grid hQ hj)
  calc ∑ p ∈ Q, w p
      ≤ ∑ p ∈ Q, ((top - x p.1) + -y p.2) := by
        refine sum_le_sum fun p hp => ?_
        have := C.feasible p (hQ hp); omega
    _ = ∑ i ∈ firsts Q, (top - x i) + ∑ j ∈ seconds Q, -y j := oQ.sum_add (fun i => top - x i) (fun j => -y j)
    _ ≤ ∑ i ∈ range n, (top - x i) + ∑ j ∈ range m, -y j := by
        refine add_le_add (sum_le_sum_of_subset_of_nonneg hrows ?_) (sum_le_sum_of_subset_of_nonneg hcols ?_)
        · intro i hi _; have := C.row_le (mem_range.1 hi); omega
        · intro j hj _; have := C.nonpos j (mem_range.1 hj); omega
    _ = ∑ i ∈ firsts A, (top - x i) + ∑ j ∈ seconds A, -y j := by
        rw [C.rows]
        congr 1
        refine (sum_subset C.columns fun j hj hjA => ?_).symm
        rw [C.free j (mem_range.1 hj) hjA]; rfl
    _ = ∑ p ∈ A, ((top - x p.1) + -y p.2) := (C.oneToOne.sum_add (fun i => top - x i) (fun j => -y j)).symm
    _ = ∑ p ∈ A, w p := by
        refine sum_congr rfl fun p hp => ?_
        have := C.tight p hp; omega

/-! ## The placed rows -/

/-- The pairs that the columns hold, with rows and columns numbered from zero. -/
def seated (m : ℕ) (s : State) : Pairs :=
  ((range m).filter fun c => s.rowAt (c + 1) ≠ 0).image fun c => (s.rowAt (c + 1) - 1, c)

section
variable {cost : ℕ → ℕ → ℤ} {n m k : ℕ} {s : State} {top : ℤ} {weight : ℕ → ℕ → ℤ}

theorem mem_seated {p : ℕ × ℕ} : p ∈ seated m s ↔ p.2 < m ∧ s.rowAt (p.2 + 1) = p.1 + 1 := by
  obtain ⟨r, c⟩ := p
  simp only [seated, mem_image, mem_filter, mem_range, Prod.mk.injEq]
  constructor
  · rintro ⟨c, ⟨hc, h0⟩, hr, rfl⟩; exact ⟨hc, by omega⟩
  · rintro ⟨hc, hr⟩; exact ⟨c, ⟨hc, by omega⟩, by omega, rfl⟩

theorem mem_seconds_seated {j : ℕ} (hj : j < m) : j ∈ seconds (seated m s) ↔ s.rowAt (j + 1) ≠ 0 := by
  simp only [mem_seconds, mem_seated]
  constructor
  · rintro ⟨i, _, h⟩; omega
  · intro h; exact ⟨s.rowAt (j + 1) - 1, hj, by omega⟩

theorem Placed.oneToOne_seated (P : Placed cost m k s) : OneToOne (seated m s) := by
  constructor
  · intro p hp q hq he
    obtain ⟨hpm, hpr⟩ := mem_seated.1 hp
    obtain ⟨hqm, hqr⟩ := mem_seated.1 hq
    have := P.seats.inj (p.2 + 1) (by rw [mem_Icc]; omega) (q.2 + 1) (by rw [mem_Icc]; omega) (by omega) (by omega)
    exact Prod.ext he (by omega)
  · intro p hp q hq he
    obtain ⟨-, hpr⟩ := mem_seated.1 hp
    obtain ⟨-, hqr⟩ := mem_seated.1 hq
    rw [he] at hpr
    exact Prod.ext (by omega) he

theorem Placed.firsts_seated (P : Placed cost m k s) : firsts (seated m s) = range k := by
  ext r
  simp only [mem_firsts, mem_seated, mem_range]
  constructor
  · rintro ⟨c, hc, hr⟩
    have := P.seats.le (c + 1) (by rw [mem_Icc]; omega)
    omega
  · intro hr
    obtain ⟨j, hj, hjr⟩ := P.seats.onto (r + 1) (by omega) (by omega)
    rw [mem_Icc] at hj
    exact ⟨j - 1, by omega, by rw [show j - 1 + 1 = j by omega, hjr]⟩

/-- The potentials after all rows certify the pairs that the columns hold. -/
theorem Placed.certificate (P : Placed (costOf top weight) m n s) :
    Certificate n m top (fun p => max (weight p.1 p.2) 0) (seated m s) (fun i => s.u (i + 1))
      (fun j => s.v (j + 1)) := by
  have hcost : ∀ r c, costOf top weight (r + 1) (c + 1) = top - max (weight r c) 0 := fun _ _ => rfl
  refine ⟨P.oneToOne_seated, P.firsts_seated, ?_, ?_, ?_, ?_, ?_, ?_, ?_⟩
  · intro c hc
    obtain ⟨r, hr⟩ := mem_seconds.1 hc
    exact mem_range.2 (mem_seated.1 hr).1
  · exact fun p _ => le_max_right _ _
  · intro p hp
    obtain ⟨hr, hc⟩ := mem_grid.1 hp
    have := P.dual.feasible (p.1 + 1) (p.2 + 1) (by omega) (by omega) (by omega) (by omega)
    rw [State.surplus, hcost] at this
    omega
  · intro p hp
    obtain ⟨hc, hr⟩ := mem_seated.1 hp
    have := P.dual.tight (p.2 + 1) (by omega) (by omega) (by omega)
    rw [State.surplus, hr, hcost] at this
    omega
  · exact fun j hj => P.dual.nonpos (j + 1) (by omega)
  · intro j hj hjA
    refine P.dual.free (j + 1) (by omega) (by omega) ?_
    by_contra h
    exact hjA ((mem_seconds_seated hj).2 h)
  · obtain ⟨j, hj1, hjm, hv⟩ := P.level
    exact ⟨j - 1, by omega, by rw [show j - 1 + 1 = j by omega]; exact hv⟩

/-- Dropping the pairs that are none leaves a heaviest set. -/
theorem Placed.heaviest (P : Placed (costOf top weight) m n s) :
    Heaviest (grid n m) (fun p => weight p.1 p.2) ((seated m s).filter fun p => 0 < weight p.1 p.2) := by
  have C := P.certificate
  refine ⟨C.oneToOne.mono (filter_subset _ _), ?_, fun p hp => (mem_filter.1 hp).2, ?_⟩
  · intro p hp
    have hpA := (mem_filter.1 hp).1
    have hr : p.1 ∈ firsts (seated m s) := mem_firsts.2 ⟨p.2, hpA⟩
    rw [C.rows] at hr
    exact mem_grid.2 ⟨mem_range.1 hr, (mem_seated.1 hpA).1⟩
  · intro Q hQ oQ
    refine le_trans (C.sum_le hQ oQ) (le_of_eq ?_)
    rw [sum_filter]
    refine sum_congr rfl fun p _ => ?_
    split <;> omega

/-! ## The solver -/

theorem mem_wide {p : ℕ × ℕ} : p ∈ wide n m top weight ↔
    p ∈ (seated m (State.after (costOf top weight) n m n)).filter fun p => 0 < weight p.1 p.2 := by
  obtain ⟨r, c⟩ := p
  simp only [wide, List.mem_filterMap, List.mem_range, mem_filter, mem_seated, Option.ite_none_right_eq_some,
    Option.some.injEq, Prod.mk.injEq, State.rowAt]
  constructor
  · rintro ⟨c, hc, ⟨h0, hw⟩, hr, rfl⟩
    refine ⟨⟨hc, by omega⟩, ?_⟩
    rw [← hr]; exact hw
  · rintro ⟨⟨hc, hr⟩, hw⟩
    refine ⟨c, hc, ⟨by omega, ?_⟩, by omega, rfl⟩
    rw [hr]; exact hw

theorem nodup_wide : (wide n m top weight).Nodup := by
  refine List.Nodup.filterMap ?_ List.nodup_range
  intro c c' p hp hp'
  simp only [Option.mem_def, Option.ite_none_right_eq_some, Option.some.injEq] at hp hp'
  have := hp.2.trans hp'.2.symm
  exact (Prod.mk.inj this).2

theorem heaviest_wide (hnm : n ≤ m) (hm : 1 ≤ m) (htop : ∀ r < n, ∀ c < m, max (weight r c) 0 ≤ top) :
    Heaviest (grid n m) (fun p => weight p.1 p.2) (wide n m top weight).toFinset := by
  have hcost : ∀ i j, 1 ≤ i → i ≤ n → 1 ≤ j → j ≤ m → 0 ≤ costOf top weight i j := by
    intro i j hi1 hin hj1 hjm
    have := htop (i - 1) (by omega) (j - 1) (by omega)
    unfold costOf
    omega
  have h := (after_placed hnm hm hcost n (le_refl n)).heaviest
  have hs : (wide n m top weight).toFinset =
      (seated m (State.after (costOf top weight) n m n)).filter fun p => 0 < weight p.1 p.2 := by
    ext p; rw [List.mem_toFinset, mem_wide]
  exact hs ▸ h

theorem flipped_grid (n m : ℕ) : flipped (grid n m) = grid m n := by
  ext p; rw [mem_flipped, mem_grid, mem_grid]; exact and_comm

/-- A matrix of more rows than columns is solved from its other side. -/
theorem heaviest_tall (hmn : m ≤ n) (hn : 1 ≤ n) (htop : ∀ r < n, ∀ c < m, max (weight r c) 0 ≤ top) :
    Heaviest (grid n m) (fun p => weight p.1 p.2)
      ((wide m n top fun r c => weight c r).map fun (r, c) => (c, r)).toFinset := by
  have h : Heaviest (grid m n) (fun p => weight p.2 p.1) (wide m n top fun c r => weight r c).toFinset :=
    heaviest_wide hmn hn fun c hc r hr => htop r hr c hc
  rw [← flipped_grid]
  refine (congrArg (Heaviest _ _) ?_).mpr (Heaviest.flipped (w := fun p => weight p.1 p.2) h)
  ext ⟨r, c⟩
  simp only [List.mem_toFinset, List.mem_map, mem_flipped, Prod.swap_prod_mk]
  constructor
  · rintro ⟨⟨c', r'⟩, hp, he⟩
    obtain ⟨rfl, rfl⟩ := Prod.mk.inj he
    exact hp
  · intro hp; exact ⟨(c, r), hp, rfl⟩

theorem mem_greatest {x : ℤ} :
    x ∈ (List.range n).flatMap (fun r => (List.range m).map (weight r)) ↔ ∃ r < n, ∃ c < m, weight r c = x := by
  simp only [List.mem_flatMap, List.mem_range, List.mem_map]

theorem nodup_solve : (solve n m weight).Nodup := by
  unfold solve
  split
  · exact List.nodup_nil
  · split
    · exact List.nodup_nil
    · refine (List.mergeSort_perm _ _).nodup_iff.2 ?_
      split
      · exact (nodup_wide).map fun p q h => by
          obtain ⟨h1, h2⟩ := Prod.mk.inj h
          exact Prod.ext h2 h1
      · exact nodup_wide

/-- **Assignment.** The solver chooses a heaviest set. -/
theorem heaviest_solve (n m : ℕ) (weight : ℕ → ℕ → ℤ) :
    Heaviest (grid n m) (fun p => weight p.1 p.2) (solve n m weight).toFinset := by
  unfold solve greatest
  cases hg : ((List.range n).flatMap fun r => (List.range m).map (weight r)).max? with
  | none =>
    have hnil := List.max?_eq_none_iff.1 hg
    refine .empty fun p hp => ?_
    obtain ⟨hr, hc⟩ := mem_grid.1 hp
    have : weight p.1 p.2 ∈ (List.range n).flatMap fun r => (List.range m).map (weight r) :=
      mem_greatest.2 ⟨p.1, hr, p.2, hc, rfl⟩
    rw [hnil] at this; cases this
  | some top =>
    obtain ⟨htop, hle⟩ := List.max?_eq_some_iff.1 hg
    have hle : ∀ r < n, ∀ c < m, weight r c ≤ top := fun r hr c hc => hle _ (mem_greatest.2 ⟨r, hr, c, hc, rfl⟩)
    obtain ⟨r0, hr0, c0, hc0, _⟩ := mem_greatest.1 htop
    simp only
    by_cases h0 : top ≤ 0
    · rw [if_pos h0]
      exact .empty fun p hp => le_trans (hle p.1 (mem_grid.1 hp).1 p.2 (mem_grid.1 hp).2) h0
    · rw [if_neg h0]
      have hmax : ∀ r < n, ∀ c < m, max (weight r c) 0 ≤ top := fun r hr c hc =>
        max_le (hle r hr c hc) (by omega)
      rw [List.toFinset_eq_of_perm _ _ (List.mergeSort_perm _ _)]
      split
      · exact heaviest_tall (by omega) (by omega) hmax
      · exact heaviest_wide (by omega) (by omega) hmax

end

end Assay.Assignment
