import Assay.Comparison
import Assay.Proofs.ShortestDecimals

/-!
# Reported differences

What a comparison shows for the difference of two scores is the double nearest to their exact difference in
ten-thousandths (`Delta.between_scores`): scores, doubles and decimals are each off by so little that the last
rounding comes back to the whole number of ten-thousandths. Differences of counts have a form as well
(`Delta.between_counts`).
-/

namespace Assay

open Binary64

section
variable {x : Float} {d : Decimal} {u v a b : ℕ} {k : ℤ} {q : ℚ}

theorem Binary64.Approximates.abs_value_le (h : Approximates (parts x) q) : |value x| ≤ 2 * |q| := by
  have hsplit := abs_sub_abs_le_abs_sub (value x) q
  have hpart : |q| / 2 ^ 52 ≤ |q| := div_le_self (abs_nonneg q) (by norm_num)
  linarith [h.error]

theorem Binary64.Approximates.isModerate (h : Approximates (parts x) q) (hq : |q| ≤ 2 ^ 90) : IsModerate (parts x) := by
  refine ⟨h.finite, fun s m e hm hx => isCanonical_parts hx, h.abs_value_le.trans ?_⟩
  calc 2 * |q| ≤ 2 * 2 ^ 90 := by gcongr
    _ ≤ 2 ^ (100 : ℤ) := by norm_num

theorem Decimal.abs_value (d : Decimal) : |d.value| = d.size := by
  rw [Decimal.value, abs_apply_mul, abs_of_nonneg]
  unfold Decimal.size
  positivity

/-- A decimal is cut to places if that takes few digits. -/
theorem roundedScore_eq (hd : Decimal.ofFloat? x = some d) (h : d.units < 10 ^ 28) :
    roundedScore x = .ok (Decimal.toFloat ⟨d.negative, d.units, -4⟩) := by
  have hplaces : d.toPlaces? = some ⟨d.negative, d.units, -4⟩ := if_pos h
  rw [roundedScore, hd]
  simp only [hplaces]

/-- A finite double that is not too large has a rounded form. -/
theorem roundedScore_returns (hx : (parts x).isFinite = true) (hsize : |value x| ≤ 2 ^ 70) :
    ∃ y, roundedScore x = .ok y := by
  obtain ⟨d, hd, hwithin⟩ := Decimal.ofFloat_within hx
  have hsplit := abs_sub_abs_le_abs_sub d.value (value x)
  rw [Decimal.abs_value] at hsplit
  have hge := (Decimal.isNearest_units d).ge
  have hunits : (d.units : ℚ) < 10 ^ 28 := by
    norm_num at hge
    linarith
  exact ⟨_, roundedScore_eq hd (by exact_mod_cast hunits)⟩

/-- A double that is close to a whole number of ten-thousandths is rounded to it. -/
theorem roundedScore_near (hx : (parts x).isFinite = true) (hk : |(k : ℚ)| ≤ 10000)
    (hnear : |value x - k / 10 ^ 4| ≤ 1 / 2 ^ 49) :
    ∃ y, roundedScore x = .ok y ∧ Approximates (parts y) (k / 10 ^ 4) := by
  obtain ⟨d, hd, hwithin⟩ := Decimal.ofFloat_within hx
  -- The decimal is close to the ten-thousandths as well.
  have hclose : |d.value - k / 10 ^ 4| ≤ 1 / 2 ^ 47 := by
    have hmost := abs_sub_abs_le_abs_sub (value x) (k / 10 ^ 4)
    have hone : |(k : ℚ) / 10 ^ 4| ≤ 1 := by
      rw [abs_div, abs_of_pos (by norm_num : (0 : ℚ) < 10 ^ 4), div_le_one (by norm_num)]
      exact hk.trans (by norm_num)
    have hsplit := abs_add_le (d.value - value x) (value x - k / 10 ^ 4)
    rw [sub_add_sub_cancel] at hsplit
    linarith
  -- So the whole number of them is the nearest one, and the sign is its sign.
  have hunits : d.units = k.natAbs := by
    refine (Decimal.isNearest_units d).eq_of_near ?_
    have habs : ((k.natAbs : ℕ) : ℚ) = |(k : ℚ) / 10 ^ 4| * 10 ^ 4 := by
      rw [abs_div, abs_of_pos (by norm_num : (0 : ℚ) < 10 ^ 4), div_mul_cancel₀ _ (by norm_num), Nat.cast_natAbs,
        Int.cast_abs]
    have hdiff := (abs_abs_sub_abs_le d.value (k / 10 ^ 4)).trans hclose
    rw [habs, ← Decimal.abs_value, zpow_ofNat, ← sub_mul, abs_mul, abs_of_pos (by norm_num : (0 : ℚ) < 10 ^ 4)]
    linarith
  have hsign : ((signOf d.negative).apply 1 * (d.units / 10 ^ 4) : ℚ) = k / 10 ^ 4 := by
    have hsize : 0 ≤ d.size := d.abs_value ▸ abs_nonneg d.value
    obtain ⟨hlow, hhigh⟩ := abs_le.1 hclose
    rw [Decimal.value] at hlow hhigh
    have happly : ((signOf d.negative).apply 1 : ℤ) * k.natAbs = k := by
      cases hneg : d.negative with
      | true =>
        rw [hneg, show ((signOf true).apply 1 : ℤ) = -1 from rfl] at hlow
        have hk1 : (k : ℚ) < 1 := by
          push_cast at hlow
          linarith
        have hk1' : k < 1 := by exact_mod_cast hk1
        rw [show ((signOf true).apply 1 : ℤ) = -1 from rfl]
        omega
      | false =>
        rw [hneg, show ((signOf false).apply 1 : ℤ) = 1 from rfl] at hhigh
        have hk1 : (-1 : ℚ) < k := by
          push_cast at hhigh
          linarith
        have hk1' : -1 < k := by exact_mod_cast hk1
        rw [show ((signOf false).apply 1 : ℤ) = 1 from rfl]
        omega
    have hcast : ((signOf d.negative).apply 1 : ℚ) * k.natAbs = k := by
      rw [← Int.cast_natCast, ← Int.cast_mul, happly]
    rw [hunits, mul_div_assoc', hcast]
  have hlt : d.units < 10 ^ 28 := by
    obtain ⟨hlow, hhigh⟩ : -10000 ≤ k ∧ k ≤ 10000 := abs_le.1 (by exact_mod_cast hk)
    omega
  have happrox := approximates_toFloat d.negative hlt
  rw [hsign] at happrox
  exact ⟨_, roundedScore_eq hd hlt, happrox⟩

namespace Delta

/-- The difference of two numbers is rounded as a score is. -/
theorem between_eq {before after : Value} {x y z : Float} (hx : numberOf before = .ok (some x))
    (hy : numberOf after = .ok (some y)) (hz : roundedScore (y - x) = .ok z) : between before after = .ok (some z) := by
  rw [between, hx, hy]
  show (roundedScore (y - x) >>= fun r => pure (some r)) = _
  rw [hz]
  rfl

/-- **Scores.** The difference of two scores is reported as exactly as a double can hold it. -/
theorem between_scores (hu : u ≤ 10000) (hv : v ≤ 10000) :
    ∃ y, between (.float (Score.toFloat ⟨u⟩)) (.float (Score.toFloat ⟨v⟩)) = .ok (some y) ∧
      Approximates (parts y) (((v : ℚ) - u) / 10 ^ 4) := by
  have hscore : ∀ {w : ℕ}, w ≤ 10000 → (w : ℚ) / 10 ^ 4 ≤ 1 ∧ Approximates (parts (Score.toFloat ⟨w⟩)) (w / 10 ^ 4) := by
    intro w hw
    have happrox := @approximates_toFloat false w (by omega)
    rw [show ((signOf false).apply 1 : ℚ) = 1 from Int.cast_one, one_mul] at happrox
    have hcast : (w : ℚ) ≤ 10000 := by exact_mod_cast hw
    exact ⟨by linarith, happrox⟩
  obtain ⟨hu1, hx⟩ := hscore hu
  obtain ⟨hv1, hy⟩ := hscore hv
  have hu0 : (0 : ℚ) ≤ u / 10 ^ 4 := by positivity
  have hv0 : (0 : ℚ) ≤ v / 10 ^ 4 := by positivity
  generalize Score.toFloat ⟨u⟩ = x at *
  generalize Score.toFloat ⟨v⟩ = y at *
  have hdiff := approximates_sub (hy.isModerate (by rw [abs_of_nonneg hv0]; linarith))
    (hx.isModerate (by rw [abs_of_nonneg hu0]; linarith))
  -- Both scores and their difference are rounded, each time by at most a part in 2^52.
  have hnear : |value (y - x) - (((v : ℤ) - u : ℤ) : ℚ) / 10 ^ 4| ≤ 1 / 2 ^ 49 := by
    have hexact : (((v : ℤ) - u : ℤ) : ℚ) / 10 ^ 4 = v / 10 ^ 4 - u / 10 ^ 4 := by
      push_cast
      ring
    have hsize : |value y - value x| ≤ 4 := by
      have hsplit := abs_sub (value y) (value x)
      have hlex := hx.abs_value_le
      have hley := hy.abs_value_le
      rw [abs_of_nonneg hu0] at hlex
      rw [abs_of_nonneg hv0] at hley
      linarith
    have herrx := hx.error
    have herry := hy.error
    rw [abs_of_nonneg hu0] at herrx
    rw [abs_of_nonneg hv0] at herry
    obtain ⟨hlowx, hhighx⟩ := abs_le.1 herrx
    obtain ⟨hlowy, hhighy⟩ := abs_le.1 herry
    obtain ⟨hlow, hhigh⟩ := abs_le.1 hdiff.error
    rw [hexact, abs_le]
    constructor <;> linarith
  obtain ⟨z, hz, hz'⟩ := roundedScore_near hdiff.finite (k := (v : ℤ) - u) (by
    have hle : |(v : ℤ) - u| ≤ 10000 := abs_le.2 ⟨by omega, by omega⟩
    exact_mod_cast hle) hnear
  refine ⟨z, between_eq rfl rfl hz, by exact_mod_cast hz'⟩

/-- **Counts.** The difference of two counts has a form. -/
theorem between_counts (ha : a < 2 ^ 63) (hb : b < 2 ^ 63) : ∃ y, between (.int a) (.int b) = .ok (some y) := by
  obtain ⟨x, hx, hax⟩ := approximates_ofInt ha
  obtain ⟨y, hy, hby⟩ := approximates_ofInt hb
  have hnumber : ∀ {n : ℕ} {x : Float}, ofInt? n = some x → numberOf (.int n) = .ok (some x) := by
    intro n x h
    simp only [numberOf, Value.toFloat, h]
  have hmoderate : ∀ {n : ℕ} {x : Float}, n < 2 ^ 63 → Approximates (parts x) n →
      IsModerate (parts x) ∧ |value x| ≤ 2 ^ 64 := by
    intro n x hn h
    have hcast : (n : ℚ) ≤ 2 ^ 63 := by exact_mod_cast hn.le
    have hle := h.abs_value_le
    rw [Nat.abs_cast] at hle
    exact ⟨h.isModerate (by rw [Nat.abs_cast]; linarith), by linarith⟩
  obtain ⟨hmx, hsx⟩ := hmoderate ha hax
  obtain ⟨hmy, hsy⟩ := hmoderate hb hby
  have hdiff := approximates_sub hmy hmx
  have hsize : |value (y - x)| ≤ 2 ^ 70 := by
    have hle := hdiff.abs_value_le
    have hsplit := abs_sub (value y) (value x)
    linarith
  obtain ⟨z, hz⟩ := roundedScore_returns hdiff.finite hsize
  exact ⟨z, between_eq (hnumber hx) (hnumber hy) hz⟩

end Delta

end

end Assay
