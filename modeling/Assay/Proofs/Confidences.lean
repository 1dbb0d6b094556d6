import Assay.Finding
import Assay.Proofs.Doubles

/-!
# Classifications in order

Doubles that are numbers lie on one line (`level`), on which both zeros have one place and a number and
its opposite mirror each other. Classifications whose confidences are numbers are therefore ordered by a
key, and sorting by insertion puts them in order of that key (`inOrder_sort`). Only the key counts, so
classifications stay in order if a negative zero among their confidences becomes a positive one.
-/

namespace Assay

/-! ## Doubles on a line -/

namespace Binary64

open Float.Model UnpackedFloat

/-- The place of a number among all numbers: by sign, then by exponent, then by mantissa. -/
def levelOf : UnpackedFloat → ℤ ×ₗ ℤ ×ₗ ℤ
  | .notANumber => toLex (0, toLex (0, 0))
  | .infinity .negative => toLex (-2, toLex (0, 0))
  | .finite .negative m e _ => toLex (-1, toLex (-e, -m))
  | .zero _ => toLex (0, toLex (0, 0))
  | .finite .positive m e _ => toLex (1, toLex (e, m))
  | .infinity .positive => toLex (2, toLex (0, 0))

/-- The place of a double among all doubles that are numbers. -/
abbrev level (x : Float) : ℤ ×ₗ ℤ ×ₗ ℤ := levelOf (parts x)

section
variable {u v : UnpackedFloat} {x y : Float}

/-- Numbers compare as their places do. -/
theorem compare_parts (hu : u.isNaN = false) (hv : v.isNaN = false) :
    (u.compare v = some .lt ↔ levelOf u < levelOf v) ∧ (u.compare v = some .eq ↔ levelOf u = levelOf v) := by
  have orders : ∀ {a b : ℕ} {d k : ℤ},
      ((compare d k).then (compare a b) = .lt ↔ d < k ∨ d = k ∧ a < b) ∧
        ((compare d k).then (compare a b) = .eq ↔ d = k ∧ a = b) ∧
          ((compare d k).then (compare a b) = .gt ↔ k < d ∨ d = k ∧ b < a) := by
    intro a b d k
    simp [Ordering.then_eq_lt, Ordering.then_eq_eq, Ordering.then_eq_gt, compare_lt_iff_lt, compare_gt_iff_gt]
  have signs : compare Sign.negative .negative = .eq ∧ compare Sign.negative .positive = .lt ∧
      compare Sign.positive .negative = .gt ∧ compare Sign.positive .positive = .eq := by decide
  rcases u with s | _ | _ | ⟨s, m, e, hm⟩ <;> rcases v with t | _ | _ | ⟨t, n, k, hn⟩ <;>
    try cases s
  all_goals try cases t
  all_goals first
    | exact absurd hu (by decide)
    | exact absurd hv (by decide)
    | simp [UnpackedFloat.compare, levelOf, Prod.Lex.toLex_lt_toLex, orders, signs]

theorem lt_iff_level (hx : (parts x).isNaN = false) (hy : (parts y).isNaN = false) : x < y ↔ level x < level y :=
  lt_iff.trans (compare_parts hx hy).1

theorem le_iff_level (hx : (parts x).isNaN = false) (hy : (parts y).isNaN = false) : x ≤ y ↔ level x ≤ level y := by
  obtain ⟨hlt, heq⟩ := compare_parts hx hy
  rw [le_iff, le_iff_lt_or_eq, ← hlt, ← heq]
  constructor
  · rintro ⟨o, ho, hle⟩
    cases o with
    | lt => exact .inl ho
    | eq => exact .inr ho
    | gt => cases hle
  · rintro (h | h)
    · exact ⟨.lt, h, rfl⟩
    · exact ⟨.eq, h, rfl⟩

/-- What is not below zero is at least zero if it is a number. -/
theorem nonneg_iff_of_not_neg (h : ¬ x < 0) : 0 ≤ x ↔ (parts x).isNaN = false := by
  have zero : (parts 0).isNaN = false := by rw [parts_zero]; rfl
  refine ⟨isNaN_of_nonneg, fun hx => ?_⟩
  rw [lt_iff_level hx zero, not_lt] at h
  exact (le_iff_level zero hx).2 h

theorem beq_iff_level (hx : (parts x).isNaN = false) (hy : (parts y).isNaN = false) :
    (x == y) = true ↔ level x = level y := by
  have h : (x == y) = ((parts x).compare (parts y) == some .eq) := rfl
  rw [h, beq_iff_eq]
  exact (compare_parts hx hy).2

/-- What is equal to something is a number. -/
theorem isNaN_of_beq (h : (x == y) = true) : (parts x).isNaN = false ∧ (parts y).isNaN = false := by
  have h : (parts x).compare (parts y) = some .eq := beq_iff_eq.1 h
  constructor
  · cases hx : parts x with
    | notANumber => rw [hx] at h; cases h
    | _ => rfl
  · cases hy : parts y with
    | notANumber => rw [hy] at h; cases hx : parts x <;> rw [hx] at h <;> cases h
    | _ => rfl

/-- Bits with the other sign stand for the opposite number. -/
theorem unpack_opposite (b : BitVec 64) :
    unpack Format.binary64 (packComponents Format.binary64 (-Sign.ofBitVec (@unpackSign Format.binary64 b))
      (unpackExponent b) (unpackMantissa b)) = (unpack Format.binary64 b).neg := by
  unfold UnpackedFloat.unpack
  simp only [unpackExponent_packComponents, unpackMantissa_packComponents, unpackSign_packComponents]
  split
  · split <;> rfl
  · split
    · split <;> rfl
    · rfl

/-- The parts of the opposite of a number. -/
theorem parts_neg (hx : (parts x).isNaN = false) : parts (-x) = (parts x).neg := by
  let b : BitVec 64 := x.toModel.toBits.toBitVec
  let c := packComponents Format.binary64 (-Sign.ofBitVec (@unpackSign Format.binary64 b)) (unpackExponent b)
    (unpackMantissa b)
  have hc : unpack Format.binary64 c = (parts x).neg := unpack_opposite b
  have valid : Format.binary64.Valid c := by
    refine ⟨fun he hm => absurd ?_ (Bool.eq_false_iff.1 hx)⟩
    rw [unpackExponent_packComponents] at he
    rw [unpackMantissa_packComponents] at hm
    have hb : parts x = unpack Format.binary64 b := rfl
    rw [hb, UnpackedFloat.unpack, if_pos he, if_neg hm]
    rfl
  have hneg : parts (-x) = unpack Format.binary64 (UnpackedFloat.pack Format.binary64 (parts x).neg) := rfl
  rw [hneg, ← hc, pack_unpack_of_valid valid]

theorem levelOf_neg (u : UnpackedFloat) : levelOf u.neg = -levelOf u := by
  rcases u with s | _ | _ | ⟨s, m, e, hm⟩ <;> try cases s
  all_goals simp [UnpackedFloat.neg, levelOf, ← toLex_neg]

end

end Binary64

/-! ## Sorting by insertion -/

namespace Sorting

section
variable {α κ : Type} [LinearOrder κ] {lt : α → α → Bool} {key : α → κ} {x : α} {xs front : List α}

/-- Items in ascending order of a key. -/
abbrev Ascending (key : α → κ) (xs : List α) : Prop := xs.Pairwise fun a b => key a ≤ key b

/-- A comparison that compares some items by a key. -/
def Compares (lt : α → α → Bool) (key : α → κ) (xs : List α) : Prop :=
  ∀ a ∈ xs, ∀ b ∈ xs, lt a b = true ↔ key a < key b

theorem Compares.of_subset {ys : List α} (h : Compares lt key ys) (hs : ∀ a ∈ xs, a ∈ ys) : Compares lt key xs :=
  fun a ha b hb => h a (hs a ha) b (hs b hb)

theorem inOrder_of_ascending (h : Compares lt key xs) (hs : Ascending key xs) : InOrder lt xs := by
  induction xs with
  | nil => exact trivial
  | cons a xs ih =>
    obtain ⟨ha, hs⟩ := List.pairwise_cons.1 hs
    have ih := ih (h.of_subset fun b hb => List.mem_cons_of_mem a hb) hs
    cases xs with
    | nil => exact trivial
    | cons b xs =>
      refine ⟨Bool.eq_false_iff.2 fun hlt => ?_, ih⟩
      exact absurd ((h b (by simp) a (by simp)).1 hlt) (not_lt.2 (ha b (by simp)))

theorem pairwise_run {R : α → α → Prop} (trans : ∀ a b c, R a b → R b c → R a c) {related : α → α → Bool}
    {last : α} (h : ∀ a ∈ last :: xs, ∀ b ∈ last :: xs, related a b = true → R a b) :
    (last :: (run related last xs).1).Pairwise R := by
  induction xs generalizing last with
  | nil => exact List.pairwise_singleton R last
  | cons x xs ih =>
    unfold run
    split
    next hx =>
      have hlast : R last x := h last (by simp) x (by simp) hx
      have ih := ih fun a ha b hb => h a (List.mem_cons_of_mem _ ha) b (List.mem_cons_of_mem _ hb)
      refine List.pairwise_cons.2 ⟨fun b hb => ?_, ih⟩
      rcases List.mem_cons.1 hb with rfl | hb
      · exact hlast
      · exact trans _ _ _ hlast ((List.pairwise_cons.1 ih).1 b hb)
    next => exact List.pairwise_singleton R last

theorem ascending_firstRun (h : Compares lt key xs) : Ascending key (firstRun lt xs).1 := by
  match xs with
  | [] => exact List.Pairwise.nil
  | [x] => exact List.pairwise_singleton _ x
  | x :: y :: rest =>
    have hrest : Compares lt key (y :: rest) := h.of_subset fun a ha => List.mem_cons_of_mem x ha
    by_cases hlt : lt y x = true
    · have hrun : (y :: (run (fun a b => lt b a) y rest).1).Pairwise fun a b => key b ≤ key a :=
        pairwise_run (fun a b c hab hbc => hbc.trans hab) fun a ha b hb hba => ((hrest b hb a ha).1 hba).le
      have hx : key y < key x := (h y (by simp) x (by simp)).1 hlt
      have hall : (x :: y :: (run (fun a b => lt b a) y rest).1).Pairwise fun a b => key b ≤ key a := by
        refine List.pairwise_cons.2 ⟨fun b hb => ?_, hrun⟩
        rcases List.mem_cons.1 hb with rfl | hb
        · exact hx.le
        · exact ((List.pairwise_cons.1 hrun).1 b hb).trans hx.le
      have hfront : (firstRun lt (x :: y :: rest)).1 = (x :: y :: (run (fun a b => lt b a) y rest).1).reverse := by
        simp [firstRun, hlt]
      rw [hfront]
      exact List.pairwise_reverse.2 hall
    · have hrun : Ascending key (y :: (run (fun a b => !lt b a) y rest).1) := by
        refine pairwise_run (fun a b c hab hbc => hab.trans hbc) fun a ha b hb hba => not_lt.1 fun hlt => ?_
        rw [(hrest b hb a ha).2 hlt] at hba
        cases hba
      have hx : key x ≤ key y := not_lt.1 fun hyx => hlt ((h y (by simp) x (by simp)).2 hyx)
      have hfront : (firstRun lt (x :: y :: rest)).1 = x :: y :: (run (fun a b => !lt b a) y rest).1 := by
        simp [firstRun, hlt]
      rw [hfront]
      refine List.pairwise_cons.2 ⟨fun b hb => ?_, hrun⟩
      rcases List.mem_cons.1 hb with rfl | hb
      · exact hx
      · exact hx.trans ((List.pairwise_cons.1 hrun).1 b hb)

/-- An item is put where it belongs. -/
theorem ascending_insert (h : Compares lt key (x :: xs)) (hs : Ascending key xs) :
    Ascending key (insert lt x xs) := by
  fun_induction insert lt x xs with
  | case1 xs half hdrop =>
    have hnil : xs = [] := by
      rw [List.drop_eq_nil_iff] at hdrop
      exact List.length_eq_zero_iff.1 (by omega)
    rw [hnil]
    exact List.pairwise_singleton _ x
  | case2 xs half y rest hdrop _ _ _ hlt ih =>
    have hxs : xs.take half ++ y :: rest = xs := by rw [← hdrop]; exact List.take_append_drop ..
    rw [← hxs] at hs h
    obtain ⟨hfront, hback, hcross⟩ := List.pairwise_append.1 hs
    have hx : key x < key y := (h x (by simp) y (by simp)).1 hlt
    have hxs' : Compares lt key (x :: xs.take half) :=
      h.of_subset (List.cons_subset_cons x (List.subset_append_left _ _))
    refine List.pairwise_append.2 ⟨ih hxs' hfront, hback, fun a ha b hb => ?_⟩
    rcases List.mem_cons.1 ((insert_perm lt x _).mem_iff.1 ha) with rfl | ha
    · rcases List.mem_cons.1 hb with rfl | hb
      · exact hx.le
      · exact hx.le.trans ((List.pairwise_cons.1 hback).1 b hb)
    · exact hcross a ha b hb
  | case3 xs half y rest hdrop _ _ _ hle ih =>
    have hxs : xs.take half ++ y :: rest = xs := by rw [← hdrop]; exact List.take_append_drop ..
    rw [← hxs] at hs h
    obtain ⟨hfront, hback, hcross⟩ := List.pairwise_append.1 hs
    obtain ⟨hy, hrest⟩ := List.pairwise_cons.1 hback
    have hx : key y ≤ key x := not_lt.1 fun hlt => hle ((h x (by simp) y (by simp)).2 hlt)
    have hxs' : Compares lt key (x :: rest) :=
      h.of_subset (List.cons_subset_cons x fun a ha => List.mem_append_right _ (List.mem_cons_of_mem y ha))
    have hmem : ∀ b ∈ insert lt x rest, b = x ∨ b ∈ rest := fun b hb =>
      List.mem_cons.1 ((insert_perm lt x rest).mem_iff.1 hb)
    refine List.pairwise_append.2 ⟨hfront, List.pairwise_cons.2 ⟨fun b hb => ?_, ih hxs' hrest⟩, fun a ha b hb => ?_⟩
    · rcases hmem b hb with rfl | hb
      · exact hx
      · exact hy b hb
    · have hay : key a ≤ key y := hcross a ha y (by simp)
      rcases List.mem_cons.1 hb with rfl | hb
      · exact hay
      · rcases hmem b hb with rfl | hb
        · exact hay.trans hx
        · exact hay.trans (hy b hb)

theorem ascending_foldl_insert (h : Compares lt key (front ++ xs)) (hf : Ascending key front) :
    Ascending key (xs.foldl (fun sorted x => insert lt x sorted) front) := by
  induction xs generalizing front with
  | nil => exact hf
  | cons x xs ih =>
    have hsub : ∀ a ∈ insert lt x front ++ xs, a ∈ front ++ x :: xs := fun a ha => by
      rcases List.mem_append.1 ha with ha | ha
      · rcases List.mem_cons.1 ((insert_perm lt x front).mem_iff.1 ha) with rfl | ha
        · simp
        · simp [ha]
      · simp [ha]
    have hx : Compares lt key (x :: front) := h.of_subset fun a ha => by
      rcases List.mem_cons.1 ha with rfl | ha
      · simp
      · simp [ha]
    exact ih (h.of_subset hsub) (ascending_insert hx hf)

/-- Sorting puts items in order that are compared by a key. -/
theorem ascending_sort (h : Compares lt key xs) : Ascending key (sort lt xs) :=
  ascending_foldl_insert (h.of_subset fun _ ha => (firstRun_perm lt xs).mem_iff.1 ha) (ascending_firstRun h)

end

end Sorting

/-! ## Classifications -/

namespace Classification

open Binary64

/-- The place of a classification: the more confident first, then by category. -/
abbrev standing (c : Classification) : (ℤ ×ₗ ℤ ×ₗ ℤ) ×ₗ ℕ := toLex (-level c.confidence, c.category.rank)

/-- The confidence of a classification is a number. -/
def IsNumber (c : Classification) : Prop := (parts c.confidence).isNaN = false

/-- Equality of classifications: confidences are equal as numbers. -/
def Same (a b : Classification) : Prop := a.category = b.category ∧ (a.confidence == b.confidence) = true

section
variable {a b : Classification} {cs ds : List Classification}

theorem before_iff (ha : a.IsNumber) (hb : b.IsNumber) : before a b = true ↔ standing a < standing b := by
  have neg : ∀ {x : Float}, (parts x).isNaN = false → (parts (-x)).isNaN = false ∧ level (-x) = -level x := by
    intro x hx
    rw [level, parts_neg hx]
    refine ⟨?_, levelOf_neg _⟩
    cases hu : parts x <;> rw [hu] at hx <;> first | rfl | cases hx
  have hlt := lt_iff_level (neg ha).1 (neg hb).1
  have heq := beq_iff_level ha hb
  rw [(neg ha).2, (neg hb).2] at hlt
  rw [before, Bool.or_eq_true, Bool.and_eq_true, decide_eq_true_iff, decide_eq_true_iff, hlt, heq,
    Prod.Lex.toLex_lt_toLex, neg_inj]

theorem Same.standing_eq (h : Same a b) : standing a = standing b := by
  obtain ⟨ha, hb⟩ := isNaN_of_beq h.2
  rw [standing, standing, (beq_iff_level ha hb).1 h.2, h.1]

theorem map_standing (h : List.Forall₂ Same ds cs) : ds.map standing = cs.map standing := by
  induction h with
  | nil => rfl
  | cons hab _ ih => rw [List.map_cons, List.map_cons, hab.standing_eq, ih]

theorem Same.refl (h : a.IsNumber) : Same a a := ⟨rfl, (beq_iff_level h h).2 rfl⟩

theorem compares (h : ∀ c ∈ cs, c.IsNumber) : Sorting.Compares before standing cs :=
  fun a ha b hb => before_iff (h a ha) (h b hb)

/-- Classifications that equal sorted ones are in order. -/
theorem sorted_of_same (hcs : ∀ c ∈ cs, c.IsNumber) (h : List.Forall₂ Same ds (sorted cs)) : sorted ds = ds := by
  have hnumber : ∀ d ∈ ds, d.IsNumber := by
    intro d hd
    obtain ⟨i, hi, rfl⟩ := List.mem_iff_getElem.1 hd
    exact (isNaN_of_beq (h.get hi (h.length_eq ▸ hi)).2).1
  have hmap := map_standing h
  have hcs : ((sorted cs).map standing).Pairwise (· ≤ ·) :=
    List.pairwise_map.2 (Sorting.ascending_sort (compares hcs))
  rw [← hmap, List.pairwise_map] at hcs
  exact Sorting.sort_eq_self (Sorting.inOrder_of_ascending (compares hnumber) hcs)

end

end Classification

end Assay
