import Assay.Proofs.Assignment.Matrices

/-!
# What is known after each row

The solver lays a matrix on its side if it has more rows than columns, and then places one row after the other.
After each row the potentials of rows and columns are those of an optimum for the rows so far (`Settled`): no pair
costs less than its two potentials together, a pair that is taken costs exactly that, and a column that is free has
the greatest potential there is, zero. So the rows so far could not have been given columns at a lower cost, however
many columns are left over (`Placed.settled`, `settled_after`).
-/

namespace Assay.Assignment

open Finset

/-- What the solver works on: weights of rows and columns, numbered from zero, and the greatest of them. -/
structure Problem where
  rows : ℕ
  columns : ℕ
  top : ℤ
  weight : ℕ → ℕ → ℤ

namespace Problem

/-- The problem that a matrix of `m` columns poses. A matrix with more rows than columns is laid on its side. -/
def ofMatrix (rows : List (List ℤ)) (m : ℕ) : Problem :=
  let top := (greatest rows.length m fun r c => entryAt rows (r, c)).getD 0
  if m < rows.length then ⟨m, rows.length, top, fun r c => entryAt rows (c, r)⟩
  else ⟨rows.length, m, top, fun r c => entryAt rows (r, c)⟩

/-- What a pair costs; rows and columns are numbered from one. -/
def cost (p : Problem) : ℕ → ℕ → ℤ := costOf p.top p.weight

/-- The state after the rows `1 … k` are placed. -/
def after (p : Problem) (k : ℕ) : State := State.after p.cost p.rows p.columns k

/-- The pairs that are chosen in the end. -/
def chosen (p : Problem) : List (ℕ × ℕ) := wide p.rows p.columns p.top p.weight

/-- A problem with no more rows than columns, whose greatest weight is positive. -/
structure IsSound (p : Problem) : Prop where
  rows_le : p.rows ≤ p.columns
  columns_pos : 1 ≤ p.columns
  weight_le : ∀ r < p.rows, ∀ c < p.columns, p.weight r c ≤ p.top
  top_pos : 0 < p.top

/-- A choice of different columns for the rows `1 … k`. -/
structure IsPlacement (p : Problem) (k : ℕ) (f : ℕ → ℕ) : Prop where
  inside : ∀ i ∈ Icc 1 k, f i ∈ Icc 1 p.columns
  inj : Set.InjOn f (Icc 1 k)

/-- The columns that hold a row. -/
def taken (p : Problem) (s : State) : Finset ℕ := (Icc 1 p.columns).filter (s.rowAt · ≠ 0)

/-- What the pairs cost that the columns hold. -/
def total (p : Problem) (s : State) : ℤ := ∑ j ∈ p.taken s, p.cost (s.rowAt j) j

/-- The rows `1 … k` are placed at the least cost, and the potentials prove it. -/
structure Settled (p : Problem) (k : ℕ) (s : State) : Prop where
  feasible : ∀ i ∈ Icc 1 k, ∀ j ∈ Icc 1 p.columns, s.u i + s.v j ≤ p.cost i j
  tight : ∀ j ∈ Icc 1 p.columns, s.rowAt j ≠ 0 → s.u (s.rowAt j) + s.v j = p.cost (s.rowAt j) j
  placed : ∀ i ∈ Icc 1 k, ∃! j, j ∈ Icc 1 p.columns ∧ s.rowAt j = i
  others : ∀ j ∈ Icc 1 p.columns, s.rowAt j ≤ k
  nonpos : ∀ j ≤ p.columns, s.v j ≤ 0
  free : ∀ j ∈ Icc 1 p.columns, s.rowAt j = 0 → s.v j = 0
  least : IsLeast {c | ∃ f, p.IsPlacement k f ∧ c = ∑ i ∈ Icc 1 k, p.cost i (f i)} (p.total s)

end Problem

section
variable {rows : List (List ℤ)} {m k : ℕ} {p : Problem} {s : State}

/-! ## The problem of a matrix -/

/-- The greatest entry of a matrix with a positive entry is positive, and no entry is greater. -/
theorem exists_greatest (h : ∀ r ∈ rows, r.length = m) (hpos : ∃ r ∈ rows, ∃ x ∈ r, 0 < x) :
    ∃ top, greatest rows.length m (fun r c => entryAt rows (r, c)) = some top ∧ 0 < top ∧ 1 ≤ m ∧
      ∀ r < rows.length, ∀ c < m, entryAt rows (r, c) ≤ top := by
  obtain ⟨row, hrow, x, hx, hx0⟩ := hpos
  obtain ⟨r, hr, rfl⟩ := List.mem_iff_getElem.1 hrow
  obtain ⟨c, hc, rfl⟩ := List.mem_iff_getElem.1 hx
  have hcm : c < m := by rwa [← h _ hrow]
  have hentry : entryAt rows (r, c) = rows[r][c] := by
    simp [entryAt, List.getD_eq_getElem?_getD, hr, hc]
  have hmem : rows[r][c] ∈ (List.range rows.length).flatMap
      (fun r => (List.range m).map fun c => entryAt rows (r, c)) := mem_greatest.2 ⟨r, hr, c, hcm, hentry⟩
  unfold greatest
  cases hg : ((List.range rows.length).flatMap fun r => (List.range m).map fun c => entryAt rows (r, c)).max? with
  | none =>
    rw [List.max?_eq_none_iff.1 hg] at hmem
    cases hmem
  | some top =>
    obtain ⟨-, hle⟩ := List.max?_eq_some_iff.1 hg
    exact ⟨top, rfl, hx0.trans_le (hle _ hmem), by omega, fun r hr c hc => hle _ (mem_greatest.2 ⟨r, hr, c, hc, rfl⟩)⟩

theorem isSound_ofMatrix (h : ∀ r ∈ rows, r.length = m) (hpos : ∃ r ∈ rows, ∃ x ∈ r, 0 < x) :
    (Problem.ofMatrix rows m).IsSound := by
  obtain ⟨top, htop, htop0, hm, hle⟩ := exists_greatest h hpos
  unfold Problem.ofMatrix
  rw [htop]
  by_cases htall : m < rows.length
  · rw [if_pos htall]
    exact ⟨htall.le, by show 1 ≤ rows.length; omega, fun r hr c hc => hle c hc r hr, htop0⟩
  · rw [if_neg htall]
    exact ⟨not_lt.1 htall, hm, hle, htop0⟩

/-- The answer for a matrix is read off the last state of its problem. -/
theorem ofRows_eq_chosen (h : ∀ r ∈ rows, r.length = m) (hpos : ∃ r ∈ rows, ∃ x ∈ r, 0 < x) :
    ofRows? rows = some ((if m < rows.length then (Problem.ofMatrix rows m).chosen.map Prod.swap
      else (Problem.ofMatrix rows m).chosen).mergeSort pairLe) := by
  obtain ⟨top, htop, htop0, hm, -⟩ := exists_greatest h hpos
  have hsolve : ofRows? rows = some (solve rows.length m fun r c => entryAt rows (r, c)) := by
    cases rows with
    | nil => obtain ⟨_, hr, _⟩ := hpos; cases hr
    | cons first rest =>
      have hfirst : first.length = m := h first List.mem_cons_self
      have hne : ¬ first.isEmpty = true := by
        rw [List.isEmpty_iff_length_eq_zero]
        omega
      have hall : ((first :: rest).all fun r => r.length == first.length) = true :=
        List.all_eq_true.2 fun r hr => beq_iff_eq.2 ((h r hr).trans hfirst.symm)
      have hentry : entry ((first :: rest).map List.toArray).toArray = fun r c => entryAt (first :: rest) (r, c) :=
        funext₂ fun r c => entry_toArray (first :: rest) r c
      rw [← hfirst, ← hentry]
      exact (if_neg hne).trans (if_pos hall)
  rw [hsolve, solve, htop]
  simp only [if_neg (not_le.2 htop0), Problem.chosen, Problem.ofMatrix, htop, Option.getD_some]
  split <;> rfl

theorem Problem.IsSound.cost_nonneg (hp : p.IsSound) {i j : ℕ} (hi1 : 1 ≤ i) (hi : i ≤ p.rows) (hj1 : 1 ≤ j)
    (hj : j ≤ p.columns) : 0 ≤ p.cost i j := by
  have hle := hp.weight_le (i - 1) (by omega) (j - 1) (by omega)
  have htop := hp.top_pos
  unfold Problem.cost costOf
  omega

theorem Problem.IsSound.placed (hp : p.IsSound) (hk : k ≤ p.rows) : Placed p.cost p.columns k (p.after k) :=
  after_placed hp.rows_le hp.columns_pos (fun _ _ => hp.cost_nonneg) k hk

/-! ## The least cost -/

theorem mem_taken {j : ℕ} : j ∈ p.taken s ↔ j ∈ Icc 1 p.columns ∧ s.rowAt j ≠ 0 := mem_filter

/-- What belongs to the rows of the columns belongs to the rows `1 … k`. -/
theorem Placed.sum_rows (P : Placed p.cost p.columns k s) (F : ℕ → ℤ) :
    ∑ j ∈ p.taken s, F (s.rowAt j) = ∑ i ∈ Icc 1 k, F i := by
  have hinj : Set.InjOn s.rowAt (p.taken s) := by
    intro j hj j' hj' he
    obtain ⟨hjm, hj0⟩ := mem_taken.1 hj
    exact P.seats.inj j hjm j' (mem_taken.1 hj').1 hj0 he
  rw [← sum_image hinj]
  congr 1
  ext i
  rw [mem_image, mem_Icc]
  constructor
  · rintro ⟨j, hj, rfl⟩
    obtain ⟨hjm, hj0⟩ := mem_taken.1 hj
    exact ⟨by omega, P.seats.le j hjm⟩
  · rintro ⟨hi1, hik⟩
    obtain ⟨j, hj, rfl⟩ := P.seats.onto i hi1 hik
    exact ⟨j, mem_taken.2 ⟨hj, by omega⟩, rfl⟩

/-- No placement costs less than the potentials allow, and what the columns hold costs just that. -/
theorem Placed.total_le (P : Placed p.cost p.columns k s) {f : ℕ → ℕ} (hf : p.IsPlacement k f) :
    p.total s ≤ ∑ i ∈ Icc 1 k, p.cost i (f i) := by
  have hsub : (Icc 1 k).image f ⊆ Icc 1 p.columns := image_subset_iff.2 hf.inside
  calc p.total s = ∑ j ∈ p.taken s, (s.u (s.rowAt j) + s.v j) := by
        refine sum_congr rfl fun j hj => ?_
        obtain ⟨hjm, hj0⟩ := mem_taken.1 hj
        rw [mem_Icc] at hjm
        have htight := P.dual.tight j hjm.1 hjm.2 hj0
        unfold State.surplus at htight
        omega
    _ = ∑ i ∈ Icc 1 k, s.u i + ∑ j ∈ Icc 1 p.columns, s.v j := by
        rw [sum_add_distrib, P.sum_rows]
        congr 1
        -- A free column adds nothing, which is why columns may be left over.
        refine sum_subset (filter_subset _ _) fun j hj hjt => ?_
        rw [mem_Icc] at hj
        by_contra hv
        exact hjt (mem_taken.2 ⟨mem_Icc.2 hj, fun h0 => hv (P.dual.free j hj.1 hj.2 h0)⟩)
    _ ≤ ∑ i ∈ Icc 1 k, s.u i + ∑ j ∈ (Icc 1 k).image f, s.v j := by
        refine add_le_add_right ?_ _
        rw [← sum_sdiff hsub, add_le_iff_nonpos_left]
        refine sum_nonpos fun j hj => P.dual.nonpos j ?_
        exact (mem_Icc.1 (mem_sdiff.1 hj).1).2
    _ = ∑ i ∈ Icc 1 k, (s.u i + s.v (f i)) := by rw [sum_image hf.inj, sum_add_distrib]
    _ ≤ ∑ i ∈ Icc 1 k, p.cost i (f i) := by
        refine sum_le_sum fun i hi => ?_
        obtain ⟨hf1, hfm⟩ := mem_Icc.1 (hf.inside i hi)
        rw [mem_Icc] at hi
        have hfeasible := P.dual.feasible i (f i) hi.1 hi.2 hf1 hfm
        unfold State.surplus at hfeasible
        omega

/-- What the columns hold is a placement of the rows. -/
theorem Placed.exists_placement (P : Placed p.cost p.columns k s) :
    ∃ f, p.IsPlacement k f ∧ p.total s = ∑ i ∈ Icc 1 k, p.cost i (f i) := by
  have hcolumn : ∀ i ∈ Icc 1 k, ∃ j ∈ Icc 1 p.columns, s.rowAt j = i := fun i hi =>
    P.seats.onto i (mem_Icc.1 hi).1 (mem_Icc.1 hi).2
  choose! f hf hrow using hcolumn
  have hself : ∀ j ∈ p.taken s, f (s.rowAt j) = j := by
    intro j hj
    obtain ⟨hjm, hj0⟩ := mem_taken.1 hj
    have hmem : s.rowAt j ∈ Icc 1 k := mem_Icc.2 ⟨by omega, P.seats.le j hjm⟩
    exact (P.seats.inj j hjm _ (hf _ hmem) hj0 (hrow _ hmem).symm).symm
  refine ⟨f, ⟨hf, fun i hi i' hi' he => ?_⟩, ?_⟩
  · rw [← hrow i hi, ← hrow i' hi', he]
  · rw [← P.sum_rows fun i => p.cost i (f i)]
    exact sum_congr rfl fun j hj => by rw [hself j hj]

/-- After each row the potentials prove that the rows so far are placed at the least cost. -/
theorem Placed.settled (P : Placed p.cost p.columns k s) : p.Settled k s := by
  refine ⟨?_, ?_, ?_, P.seats.le, P.dual.nonpos, ?_, P.exists_placement, ?_⟩
  · intro i hi j hj
    rw [mem_Icc] at hi hj
    have hfeasible := P.dual.feasible i j hi.1 hi.2 hj.1 hj.2
    unfold State.surplus at hfeasible
    omega
  · intro j hj h0
    rw [mem_Icc] at hj
    have htight := P.dual.tight j hj.1 hj.2 h0
    unfold State.surplus at htight
    omega
  · intro i hi
    rw [mem_Icc] at hi
    obtain ⟨j, hj, hji⟩ := P.seats.onto i hi.1 hi.2
    refine ⟨j, ⟨hj, hji⟩, fun j' hj' => ?_⟩
    exact P.seats.inj j' hj'.1 j hj (by omega) (hj'.2.trans hji.symm)
  · intro j hj h0
    rw [mem_Icc] at hj
    exact P.dual.free j hj.1 hj.2 h0
  · rintro c ⟨f, hf, rfl⟩
    exact P.total_le hf

/-- **After each row.** For every matrix with a positive entry the answer is read off the last state of its problem.
After each row, no pair of a row so far costs less than its two potentials together, and the pairs that the columns
hold cost just that; they are those of the rows so far, each once. No column has a positive potential, and a free one
has none. So the rows so far are placed at the least cost of all placements. -/
theorem settled_after (h : ∀ r ∈ rows, r.length = m) (hpos : ∃ r ∈ rows, ∃ x ∈ r, 0 < x) :
    (∀ k ≤ (Problem.ofMatrix rows m).rows,
      (Problem.ofMatrix rows m).Settled k ((Problem.ofMatrix rows m).after k)) ∧
    ofRows? rows = some ((if m < rows.length then (Problem.ofMatrix rows m).chosen.map Prod.swap
      else (Problem.ofMatrix rows m).chosen).mergeSort pairLe) :=
  ⟨fun _ hk => ((isSound_ofMatrix h hpos).placed hk).settled, ofRows_eq_chosen h hpos⟩

/-- Three rows and two columns are laid on their side. The weights 3 and 6 lack three to twice the greatest weight,
and no other choice for the two rows lacks less. -/
theorem settled_after_tall : (∀ r ∈ [[4, 6], [-1, 5], [3, 0]], r.length = 2) ∧
    (∃ r ∈ [[4, 6], [-1, 5], [3, 0]], ∃ x ∈ r, (0 : ℤ) < x) ∧
    IsLeast {c | ∃ f, (Problem.ofMatrix [[4, 6], [-1, 5], [3, 0]] 2).IsPlacement 2 f ∧
      c = ∑ i ∈ Icc 1 2, (Problem.ofMatrix [[4, 6], [-1, 5], [3, 0]] 2).cost i (f i)} 3 := by
  have h : ∀ r ∈ [[4, 6], [-1, 5], [3, 0]], r.length = 2 := by decide
  have hpos : ∃ r ∈ [[4, 6], [-1, 5], [3, 0]], ∃ x ∈ r, (0 : ℤ) < x := by decide
  obtain ⟨hsettled, -⟩ := settled_after h hpos
  exact ⟨h, hpos, (hsettled 2 (by decide)).least⟩

end

end Assay.Assignment
