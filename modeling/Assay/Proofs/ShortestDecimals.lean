import Assay.Proofs.RoundedDoubles

/-!
# Shortest decimals

The decimal that a double is written as lies in the interval of the numbers that round to the double
(`Shortest.size_digits_within`): the search for it ends at a grid with a point in that interval, at the latest
when a step of the grid is no longer than a quarter of the distance of two doubles. So the decimal of a double is
off by little (`Decimal.ofFloat_within`).
-/

namespace Assay

/-- The number that digits are. -/
def Digits.size (d : Digits) : ℚ := d.digits * 10 ^ d.exponent

theorem roundQuotient_eq (num den : ℕ) : roundQuotient num den = num / den ∨ roundQuotient num den = num / den + 1 := by
  unfold roundQuotient
  simp only
  split
  · exact .inl rfl
  split
  · exact .inr rfl
  split
  · exact .inl rfl
  · exact .inr rfl

namespace Shortest

section
variable {t : Target} {unitNum unitDen n m fuel j : ℕ} {k e : ℤ}

/-! ## Grids -/

/-- Points that a target holds are between its ends. -/
theorem Target.bounds_of_holds {d : ℕ} (h : t.holds n d = true) : t.low * d ≤ n ∧ n ≤ t.high * d := by
  unfold Target.holds at h
  split at h <;> simp only [Bool.and_eq_true, decide_eq_true_iff] at h <;> omega

/-- A step of a grid, as a ratio to the unit. -/
theorem step_spec (hnum : 0 < unitNum) (hden : 0 < unitDen) (k : ℤ) :
    0 < (if k < 0 then 1 else tenTo k.toNat) * unitDen ∧ 0 < (if k < 0 then tenTo (-k).toNat else 1) * unitNum ∧
      (((if k < 0 then 1 else tenTo k.toNat) * unitDen : ℕ) : ℚ) * (unitNum / unitDen) =
        10 ^ k * ((if k < 0 then tenTo (-k).toNat else 1) * unitNum : ℕ) := by
  have hden' : (unitDen : ℚ) ≠ 0 := by exact_mod_cast hden.ne'
  have hten := tenTo_pos k.toNat
  have hten' := tenTo_pos (-k).toNat
  refine ⟨by split <;> positivity, by split <;> positivity, ?_⟩
  split
  next hk =>
    rw [Nat.cast_mul, Nat.cast_mul, cast_tenTo (by omega), Nat.cast_one, one_mul, mul_div_cancel₀ _ hden', ← mul_assoc,
      ← zpow_add₀ (by norm_num), add_neg_cancel, zpow_zero, one_mul]
  next hk =>
    rw [Nat.cast_mul, Nat.cast_mul, cast_tenTo (by omega), Nat.cast_one, one_mul, mul_assoc, mul_div_cancel₀ _ hden']

/-- A grid point that is found lies in the target. -/
theorem onGrid_within (hnum : 0 < unitNum) (hden : 0 < unitDen) (h : onGrid t unitNum unitDen k = some n) :
    t.low * ((unitNum : ℚ) / unitDen) ≤ n * 10 ^ k ∧ n * 10 ^ k ≤ t.high * ((unitNum : ℚ) / unitDen) := by
  obtain ⟨hN, hD, hstep⟩ := step_spec hnum hden k
  rw [onGrid] at h
  generalize (if k < 0 then 1 else tenTo k.toNat) * unitDen = N at *
  generalize (if k < 0 then tenTo (-k).toNat else 1) * unitNum = D at *
  have hunit : (0 : ℚ) < unitNum / unitDen := by positivity
  generalize (unitNum : ℚ) / unitDen = u at *
  have hD' : (0 : ℚ) < D := by exact_mod_cast hD
  have hheld : ∀ {j : ℕ}, t.holds (j * N) D = true → t.low * u ≤ j * 10 ^ k ∧ j * 10 ^ k ≤ t.high * u := by
    intro j hj
    have hpoint : (j : ℚ) * 10 ^ k = (j * N : ℕ) * (u / D) := by
      rw [Nat.cast_mul, mul_assoc, mul_div_assoc', hstep, mul_div_assoc, div_self hD'.ne', mul_one]
    have hend : ∀ a : ℕ, (a : ℚ) * u = (a * D : ℕ) * (u / D) := by
      intro a
      rw [Nat.cast_mul, mul_assoc, mul_div_cancel₀ _ hD'.ne']
    obtain ⟨hlow, hhigh⟩ := Target.bounds_of_holds hj
    rw [hpoint, hend, hend]
    exact ⟨mul_le_mul_of_nonneg_right (by exact_mod_cast hlow) (by positivity),
      mul_le_mul_of_nonneg_right (by exact_mod_cast hhigh) (by positivity)⟩
  split at h
  next hboth =>
    obtain ⟨hbelow, habove⟩ := Bool.and_eq_true_iff.1 hboth
    obtain rfl := Option.some.inj h
    rcases roundQuotient_eq (t.value * D) N with heq | heq <;> rw [heq]
    · exact hheld hbelow
    · exact hheld habove
  split at h
  next hbelow =>
    obtain rfl := Option.some.inj h
    exact hheld hbelow
  split at h
  next habove =>
    obtain rfl := Option.some.inj h
    exact hheld habove
  cases h

/-- A grid whose steps are no longer than the unit has a point in the target. -/
theorem exists_onGrid (hnum : 0 < unitNum) (hden : 0 < unitDen) (hlow : t.low < t.value) (hhigh : t.value < t.high)
    (hgrid : (10 : ℚ) ^ k ≤ unitNum / unitDen) : ∃ n, onGrid t unitNum unitDen k = some n := by
  obtain ⟨hN, hD, hstep⟩ := step_spec hnum hden k
  rw [onGrid]
  generalize (if k < 0 then 1 else tenTo k.toNat) * unitDen = N at *
  generalize (if k < 0 then tenTo (-k).toNat else 1) * unitNum = D at *
  have hunit : (0 : ℚ) < unitNum / unitDen := by positivity
  generalize (unitNum : ℚ) / unitDen = u at *
  have hND : N ≤ D := by
    have hle : (N : ℚ) * u ≤ D * u := by
      rw [hstep, mul_comm (D : ℚ)]
      exact mul_le_mul_of_nonneg_right hgrid (by positivity)
    exact_mod_cast (mul_le_mul_iff_left₀ hunit).1 hle
  -- The grid point below the value is less than a unit away from it.
  have hbelow : t.holds (t.value * D / N * N) D = true := by
    have hsplit := Nat.div_add_mod (t.value * D) N
    have hmod := Nat.mod_lt (t.value * D) hN
    have h1 : (t.low + 1) * D ≤ t.value * D := Nat.mul_le_mul_right D hlow
    have h2 : (t.value + 1) * D ≤ t.high * D := Nat.mul_le_mul_right D hhigh
    rw [Nat.add_mul, Nat.one_mul] at h1 h2
    rw [mul_comm] at hsplit
    rw [Target.holds]
    split <;> simp only [Bool.and_eq_true, decide_eq_true_iff] <;> omega
  simp only [hbelow, Bool.true_and, if_true]
  split
  · exact ⟨_, rfl⟩
  · exact ⟨_, rfl⟩

/-! ## The search -/

/-- What the search finds is not above the target. -/
theorem size_search_le (hnum : 0 < unitNum) (hden : 0 < unitDen) :
    (search t unitNum unitDen fuel k).size ≤ t.high * ((unitNum : ℚ) / unitDen) := by
  induction fuel generalizing k with
  | zero =>
    rw [search, Digits.size, Nat.cast_zero, zero_mul]
    positivity
  | succ fuel ih =>
    rw [search]
    split
    next n hn => exact (onGrid_within hnum hden hn).2
    next => exact ih

/-- The search finds something that is not below the target, if it comes to a fine grid. -/
theorem le_size_search (hnum : 0 < unitNum) (hden : 0 < unitDen) (hlow : t.low < t.value) (hhigh : t.value < t.high)
    (hgrid : (10 : ℚ) ^ (k - j) ≤ unitNum / unitDen) (hj : j < fuel) :
    t.low * ((unitNum : ℚ) / unitDen) ≤ (search t unitNum unitDen fuel k).size := by
  induction fuel generalizing k j with
  | zero => omega
  | succ fuel ih =>
    rw [search]
    split
    next n hn => exact (onGrid_within hnum hden hn).1
    next hnone =>
      cases j with
      | zero =>
        obtain ⟨n, hn⟩ := exists_onGrid hnum hden hlow hhigh (by simpa using hgrid)
        rw [hn] at hnone
        cases hnone
      | succ j =>
        refine @ih j (k - 1) ?_ (by omega)
        rwa [sub_sub, add_comm, ← Nat.cast_succ]

theorem size_normalize (fuel : ℕ) (d : Digits) : (normalize fuel d).size = d.size := by
  fun_induction normalize fuel d with
  | case1 d => rfl
  | case2 fuel d h ih =>
    have hdigits : (d.digits : ℚ) = (d.digits / 10 : ℕ) * 10 := by
      have hten : d.digits / 10 * 10 = d.digits := Nat.div_mul_cancel (Nat.dvd_of_mod_eq_zero h.2)
      exact_mod_cast hten.symm
    rw [ih, Digits.size, Digits.size, hdigits, zpow_add_one₀ (by norm_num), mul_assoc, mul_comm (10 : ℚ)]
  | case3 => rfl

/-! ## Shortest decimals -/

theorem target_low (m : ℕ) (e : ℤ) (hm : 0 < m) :
    4 * m ≤ (target m e).low + 2 ∧ (target m e).low < (target m e).value := by
  rw [target]
  split <;> simp only <;> omega

/-- The unit of a target is a quarter of the distance of two doubles. -/
theorem unit_eq (e : ℤ) : ((if e < 2 then 1 else twoTo (e - 2).toNat : ℕ) : ℚ) /
    (if e < 2 then twoTo (2 - e).toNat else 1 : ℕ) = 2 ^ (e - 2) := by
  split
  · rw [Binary64.cast_twoTo (by omega), Nat.cast_one, one_div, ← zpow_neg, neg_sub]
  · rw [Binary64.cast_twoTo (by omega), Nat.cast_one, div_one]

theorem digits_spec (m : ℕ) (e : ℤ) : ∃ unitNum unitDen : ℕ, 0 < unitNum ∧ 0 < unitDen ∧
    (unitNum : ℚ) / unitDen = 2 ^ (e - 2) ∧
      (digits m e).size = (search (target m e) unitNum unitDen 24 (((m.log2 : ℤ) + e + 1) * 30103 / 100000 + 2)).size := by
  refine ⟨_, _, ?_, ?_, unit_eq e, size_normalize 20 _⟩
  · split
    · exact Nat.one_pos
    · exact twoTo_pos _
  · split
    · exact twoTo_pos _
    · exact Nat.one_pos

theorem two_pow_le_ten_pow {j k : ℕ} (h : 10 * j ≤ 33 * k) : 2 ^ j ≤ 10 ^ k := by
  refine (Nat.pow_le_pow_iff_left (by decide : 10 ≠ 0)).1 ?_
  calc (2 ^ j) ^ 10 = 2 ^ (10 * j) := by rw [← pow_mul, mul_comm]
    _ ≤ 2 ^ (33 * k) := Nat.pow_le_pow_right (by decide) h
    _ = (2 ^ 33) ^ k := pow_mul ..
    _ ≤ (10 ^ 10) ^ k := Nat.pow_le_pow_left (by decide) k
    _ = (10 ^ k) ^ 10 := pow_right_comm ..

theorem ten_pow_le_two_pow {j k : ℕ} (h : 10 * k ≤ 3 * j) : 10 ^ k ≤ 2 ^ j := by
  refine (Nat.pow_le_pow_iff_left (by decide : 3 ≠ 0)).1 ?_
  calc (10 ^ k) ^ 3 = (10 ^ 3) ^ k := pow_right_comm ..
    _ ≤ (2 ^ 10) ^ k := Nat.pow_le_pow_left (by decide) k
    _ = 2 ^ (10 * k) := (pow_mul ..).symm
    _ ≤ 2 ^ (3 * j) := Nat.pow_le_pow_right (by decide) h
    _ = (2 ^ j) ^ 3 := by rw [← pow_mul, mul_comm]

/-- The last grid of the search is finer than a quarter of the distance of two doubles. -/
theorem last_grid (h : Binary64.IsCanonical m e) (hm : 0 < m) :
    (10 : ℚ) ^ (((m.log2 : ℤ) + e + 1) * 30103 / 100000 + 2 - (23 : ℕ)) ≤ 2 ^ (e - 2) := by
  have hlog : m.log2 < 53 := (Nat.log2_lt hm.ne').2 h.mantissa
  have hleast := h.least
  have hgreatest := h.greatest
  obtain ⟨a, ha, hfine, hcoarse⟩ : ∃ a : ℤ, ((m.log2 : ℤ) + e + 1) * 30103 / 100000 + 2 - (23 : ℕ) = a ∧
      (a ≤ 0 → 10 * (2 - e) ≤ 33 * -a) ∧ (0 ≤ a → 10 * a ≤ 3 * (e - 2)) := ⟨_, rfl, by omega, by omega⟩
  rw [ha]
  rcases le_total a 0 with hneg | hpos
  · obtain ⟨k, rfl⟩ : ∃ k : ℕ, a = -k := ⟨a.natAbs, by omega⟩
    have hpow : ((2 ^ (2 - e).toNat : ℕ) : ℚ) ≤ (10 ^ k : ℕ) := by
      exact_mod_cast two_pow_le_ten_pow (j := (2 - e).toNat) (k := k) (by omega)
    calc (10 : ℚ) ^ (-(k : ℤ)) = ((10 ^ k : ℕ) : ℚ)⁻¹ := by
          rw [zpow_neg, zpow_natCast, Nat.cast_pow, Nat.cast_ofNat]
      _ ≤ ((2 ^ (2 - e).toNat : ℕ) : ℚ)⁻¹ := by gcongr
      _ = 2 ^ (-((2 - e).toNat : ℤ)) := by rw [zpow_neg, zpow_natCast, Nat.cast_pow, Nat.cast_ofNat]
      _ ≤ 2 ^ (e - 2) := zpow_le_zpow_right₀ (by norm_num) (by omega)
  · obtain ⟨k, rfl⟩ : ∃ k : ℕ, a = k := ⟨a.natAbs, by omega⟩
    obtain ⟨j, hj⟩ : ∃ j : ℕ, e - 2 = j := ⟨(e - 2).natAbs, by omega⟩
    rw [hj, zpow_natCast, zpow_natCast]
    exact_mod_cast ten_pow_le_two_pow (j := j) (k := k) (by omega)

/-- **Shortest decimals.** The decimal is off by at most half of the distance of two doubles. -/
theorem size_digits_within (h : Binary64.IsCanonical m e) (hm : 0 < m) :
    |(digits m e).size - m * 2 ^ e| ≤ 2 ^ (e - 1) := by
  obtain ⟨unitNum, unitDen, hnum, hden, hunit, hdigits⟩ := digits_spec m e
  obtain ⟨hlow, hvalue⟩ := target_low m e hm
  have hhigh : (target m e).value < (target m e).high := by
    rw [target]
    simp only
    omega
  have hgrid := last_grid h hm
  have hle := hdigits.trans_le (size_search_le hnum hden)
  have hge := le_size_search hnum hden hvalue hhigh (hunit ▸ hgrid) (by decide : 23 < 24)
  rw [hunit] at hle
  rw [← hdigits, hunit] at hge
  -- The ends of the target are two units away from the value.
  have hends : (4 * m : ℚ) ≤ (target m e).low + 2 := by exact_mod_cast hlow
  have hends' : ((target m e).high : ℚ) = 4 * m + 2 := by
    rw [target]
    push_cast
    ring
  have hpos : (0 : ℚ) < 2 ^ (e - 2) := by positivity
  have hwhole : (m : ℚ) * 2 ^ e = 4 * m * 2 ^ (e - 2) := by
    rw [zpow_sub₀ (by norm_num)]
    ring
  have hhalf : (2 : ℚ) ^ (e - 1) = 2 * 2 ^ (e - 2) := by
    rw [← zpow_one_add₀ (by norm_num)]
    congr 1
    ring
  have hlow' := mul_le_mul_of_nonneg_right hends hpos.le
  rw [hends'] at hle
  rw [hwhole, hhalf, abs_le]
  constructor <;> linarith

end

end Shortest

namespace Decimal

open Binary64 Float.Model UnpackedFloat

/-- The number that a decimal is. -/
def value (d : Decimal) : ℚ := (signOf d.negative).apply 1 * d.size

/-- The decimal of a finite double is off by little. -/
theorem ofFloat_within {x : Float} (hx : (parts x).isFinite = true) :
    ∃ d, ofFloat? x = some d ∧ |d.value - Binary64.value x| ≤ |Binary64.value x| / 2 ^ 52 + 1 / 2 ^ 60 := by
  rw [Binary64.value, ofFloat?, magnitude_eq]
  cases hu : parts x with
  | zero s =>
    refine ⟨_, rfl, ?_⟩
    simp [value, size, valueOf]
  | finite s m e hm =>
    have hc := isCanonical_parts hu
    have hsign : signOf (isNegative s) = s := by cases s <;> rfl
    refine ⟨_, if_neg hm.ne', ?_⟩
    rw [value, hsign, valueOf, cast_apply, mul_assoc, ← mul_sub, abs_apply_mul, abs_apply_mul]
    refine (Shortest.size_digits_within hc hm).trans ?_
    rw [abs_of_nonneg (show (0 : ℚ) ≤ m * 2 ^ e by positivity)]
    rcases hc.full with hfull | rfl
    · have hcast : (2 : ℚ) ^ 52 ≤ m := by exact_mod_cast hfull
      have hpos : (0 : ℚ) < 2 ^ e := by positivity
      have hpart : (2 : ℚ) ^ e ≤ m * 2 ^ e / 2 ^ 52 := by
        rw [le_div_iff₀ (by norm_num), mul_comm]
        exact mul_le_mul_of_nonneg_right hcast hpos.le
      rw [zpow_sub_one₀ (by norm_num)]
      linarith
    · have hsmall : (2 : ℚ) ^ (-1074 - 1 : ℤ) ≤ 2 ^ (-60 : ℤ) := zpow_le_zpow_right₀ (by norm_num) (by decide)
      exact le_add_of_nonneg_of_le (by positivity) (hsmall.trans (by norm_num))
  | _ => rw [hu] at hx; cases hx

end Decimal

end Assay
