import Assay.Proofs.Ranking

/-!
# Matrices given by their rows

A matching of a matrix takes positive entries, no row and no column twice. The solver is given the rows of
a matrix, which may be more or fewer than its columns, and it returns a matching with the greatest sum
(`ofRows_greatest`). Nothing is asked of the matrix but that its rows are of one length: entries may be
negative or zero, and it may have no rows, or no columns.
-/

namespace Assay.Assignment

open Finset

/-- The entry of a matrix at a position; zero outside. -/
def entryAt (rows : List (List ℤ)) (p : ℕ × ℕ) : ℤ := (rows.getD p.1 []).getD p.2 0

/-- A matching of a matrix with `m` columns: pairs of a row and a column, none used twice, with positive
entries. -/
structure IsMatching (rows : List (List ℤ)) (m : ℕ) (M : Pairs) : Prop where
  inside : ∀ p ∈ M, p.1 < rows.length ∧ p.2 < m
  oneToOne : OneToOne M
  positive : ∀ p ∈ M, 0 < entryAt rows p

section
variable {rows : List (List ℤ)} {n m : ℕ} {M : Pairs} {p q : ℕ × ℕ} {weight : ℕ → ℕ → ℤ}

/-! ## Entries and order -/

theorem entry_toArray (rows : List (List ℤ)) (r c : ℕ) :
    entry (rows.map List.toArray).toArray r c = entryAt rows (r, c) := by
  unfold entry entryAt
  by_cases hr : r < rows.length
  · simp [Array.getD_eq_getD_getElem?, List.getD_eq_getElem?_getD, hr]
  · simp [Array.getD_eq_getD_getElem?, List.getD_eq_getElem?_getD, hr]

theorem pairLe_iff : pairLe p q = true ↔ toLex p ≤ toLex q := by
  rw [Prod.Lex.toLex_le_toLex]
  simp [pairLe]

/-- The chosen pairs stand in ascending order, each once. -/
theorem solve_ascending (n m : ℕ) (weight : ℕ → ℕ → ℤ) :
    (solve n m weight).Pairwise fun p q => toLex p < toLex q := by
  have hsorted : (solve n m weight).Pairwise fun p q => toLex p ≤ toLex q := by
    unfold solve
    split
    · exact List.Pairwise.nil
    · split
      · exact List.Pairwise.nil
      · exact ((Ranking.of_key toLex fun _ _ => pairLe_iff).pairwise _).imp pairLe_iff.1
  refine (hsorted.and nodup_solve).imp ?_
  intro p q h
  exact lt_of_le_of_ne h.1 fun e => h.2 (toLex.injective e)

/-! ## Matchings -/

/-- A heaviest set of the whole matrix is a matching with the greatest sum. -/
theorem isGreatest_of_heaviest (h : Heaviest (grid rows.length m) (entryAt rows) M) :
    IsMatching rows m M ∧ IsGreatest {s | ∃ Q, IsMatching rows m Q ∧ s = ∑ p ∈ Q, entryAt rows p}
      (∑ p ∈ M, entryAt rows p) := by
  have hM : IsMatching rows m M := ⟨fun p hp => mem_grid.1 (h.inside hp), h.oneToOne, h.positive⟩
  refine ⟨hM, ⟨M, hM, rfl⟩, ?_⟩
  rintro s ⟨Q, hQ, rfl⟩
  calc ∑ p ∈ Q, entryAt rows p
      = ∑ p ∈ Q, max (entryAt rows p) 0 := sum_congr rfl fun p hp => (max_eq_left (hQ.positive p hp).le).symm
    _ ≤ ∑ p ∈ M, entryAt rows p := h.heaviest Q (fun p hp => mem_grid.2 (hQ.inside p hp)) hQ.oneToOne

theorem heaviest_empty (hm : m = 0) : Heaviest (grid rows.length m) (entryAt rows) ∅ := by
  refine .empty fun p hp => ?_
  have := (mem_grid.1 hp).2
  omega

/-- The solver returns a heaviest set of every matrix, in order. -/
theorem ofRows_heaviest (h : ∀ r ∈ rows, r.length = m) : ∃ pairs, ofRows? rows = some pairs ∧
    (pairs.Pairwise fun p q => toLex p < toLex q) ∧
    Heaviest (grid rows.length m) (entryAt rows) pairs.toFinset := by
  cases rows with
  | nil => exact ⟨[], rfl, List.Pairwise.nil, .empty fun p hp => absurd (mem_grid.1 hp).1 (by simp)⟩
  | cons first rest =>
    have hfirst : first.length = m := h first List.mem_cons_self
    by_cases hempty : first.isEmpty = true
    · refine ⟨[], if_pos hempty, List.Pairwise.nil, heaviest_empty ?_⟩
      rw [← hfirst, List.isEmpty_iff.1 hempty, List.length_nil]
    · have hall : ((first :: rest).all fun r => r.length == first.length) = true :=
        List.all_eq_true.2 fun r hr => beq_iff_eq.2 ((h r hr).trans hfirst.symm)
      refine ⟨_, (if_neg hempty).trans (if_pos hall), solve_ascending _ _ _, ?_⟩
      rw [hfirst]
      exact (heaviest_solve _ m _).congr fun p _ => (entry_toArray _ p.1 p.2).symm

/-- **Assignment of a matrix.** For every matrix, however its numbers of rows and columns compare and
whatever the signs of its entries, the solver returns pairs in ascending order that are a matching, and no
matching has a greater sum. -/
theorem ofRows_greatest (h : ∀ r ∈ rows, r.length = m) : ∃ pairs, ofRows? rows = some pairs ∧
    (pairs.Pairwise fun p q => toLex p < toLex q) ∧ IsMatching rows m pairs.toFinset ∧
    IsGreatest {s | ∃ Q, IsMatching rows m Q ∧ s = ∑ p ∈ Q, entryAt rows p}
      (pairs.map (entryAt rows)).sum := by
  obtain ⟨pairs, hpairs, hsorted, hheaviest⟩ := ofRows_heaviest h
  have hnodup : pairs.Nodup := hsorted.imp fun hlt e => (ne_of_lt hlt) (congrArg toLex e)
  obtain ⟨hmatching, hgreatest⟩ := isGreatest_of_heaviest hheaviest
  rw [List.sum_toFinset _ hnodup] at hgreatest
  exact ⟨pairs, hpairs, hsorted, hmatching, hgreatest⟩

/-- Three rows compete for two columns, and the row of the greatest entry takes the other one. -/
theorem ofRows_greatest_tall : (∀ r ∈ [[4, 6], [-1, 5], [3, 0]], r.length = 2) ∧
    ∃ pairs, ofRows? [[4, 6], [-1, 5], [3, 0]] = some pairs ∧ pairs = [(0, 0), (1, 1)] ∧
      IsMatching [[4, 6], [-1, 5], [3, 0]] 2 pairs.toFinset ∧
      IsGreatest {s | ∃ Q, IsMatching [[4, 6], [-1, 5], [3, 0]] 2 Q ∧
        s = ∑ p ∈ Q, entryAt [[4, 6], [-1, 5], [3, 0]] p} 9 := by
  have h : ∀ r ∈ [[4, 6], [-1, 5], [3, 0]], r.length = 2 := by decide
  obtain ⟨pairs, hpairs, -, hmatching, hgreatest⟩ := ofRows_greatest h
  have hvalue : ofRows? [[4, 6], [-1, 5], [3, 0]] = some [(0, 0), (1, 1)] := by cbv
  obtain rfl : pairs = [(0, 0), (1, 1)] := Option.some.inj (hpairs.symm.trans hvalue)
  exact ⟨h, _, hpairs, rfl, hmatching, hgreatest⟩

end

end Assay.Assignment
