import Assay.Metrics
import Mathlib

/-!
# Reported scores

A score is the nearest number of ten-thousandths to a decimal of 28 digits, which is the nearest one to a ratio.
Both steps keep the order of ratios (`Score.units_mono`), and together they move a ratio by little more than
half of a ten-thousandth (`Score.units_within`). Everything rests on one relation, that of a whole number being
nearest to a number with ties going to the even one (`IsNearest`).
-/

namespace Assay

/-! ## Nearest whole numbers -/

/-- A whole number is nearest to a number; of two that are equally near it is the even one. -/
structure IsNearest (n : ℕ) (q : ℚ) : Prop where
  le : q ≤ n + 1 / 2
  ge : (n : ℚ) - 1 / 2 ≤ q
  even : q = n + 1 / 2 ∨ q = n - 1 / 2 → n % 2 = 0

section
variable {m n num den k : ℕ} {p q : ℚ}

/-- Greater numbers have nearest whole numbers that are not less. -/
theorem IsNearest.mono (hm : IsNearest m p) (hn : IsNearest n q) (h : p ≤ q) : m ≤ n := by
  by_contra hlt
  have hnat : n + 1 ≤ m := by omega
  have hcast : (n : ℚ) + 1 ≤ m := by exact_mod_cast hnat
  have hp := hm.ge
  have hq := hn.le
  -- Both numbers lie in the middle between two whole numbers, of which only one is even.
  have heq : (m : ℚ) = n + 1 := by linarith
  have hmn : m = n + 1 := by exact_mod_cast heq
  have heven := hm.even (.inr (by linarith))
  have heven' := hn.even (.inl (by linarith))
  omega

/-- A whole number that is nearer than half is the nearest one. -/
theorem IsNearest.eq_of_near (h : IsNearest m q) (hq : |q - n| < 1 / 2) : m = n := by
  obtain ⟨hlow, hhigh⟩ := abs_lt.1 hq
  have hle := h.le
  have hge := h.ge
  have hmn : (m : ℚ) < n + 1 := by linarith
  have hnm : (n : ℚ) < m + 1 := by linarith
  have hmn' : m < n + 1 := by exact_mod_cast hmn
  have hnm' : n < m + 1 := by exact_mod_cast hnm
  omega

/-- An even number at a distance of at most half is the nearest one. -/
theorem IsNearest.eq_of_even (h : IsNearest m q) (hn : n % 2 = 0) (hq : |q - n| ≤ 1 / 2) : m = n := by
  have hself : IsNearest n q := by
    obtain ⟨hlow, hhigh⟩ := abs_le.1 hq
    exact ⟨by linarith, by linarith, fun _ => hn⟩
  exact le_antisymm (h.mono hself le_rfl) (hself.mono h le_rfl)

theorem isNearest_self (n : ℕ) : IsNearest n n := ⟨by linarith, by linarith, by rintro (h | h) <;> linarith⟩

theorem IsNearest.abs_sub_le (h : IsNearest n q) : |(n : ℚ) - q| ≤ 1 / 2 :=
  abs_le.2 ⟨by linarith [h.le], by linarith [h.ge]⟩

theorem isNearest_roundQuotient (h : 0 < den) : IsNearest (roundQuotient num den) ((num : ℚ) / den) := by
  have hden : (0 : ℚ) < den := by exact_mod_cast h
  obtain ⟨hhigh, hlow⟩ := @roundQuotient_within num den h
  have hhigh' : 2 * ((roundQuotient num den : ℚ) * den) ≤ 2 * num + den := by exact_mod_cast hhigh
  have hlow' : 2 * (num : ℚ) ≤ 2 * (roundQuotient num den * den) + den := by exact_mod_cast hlow
  refine ⟨?_, ?_, ?_⟩
  · rw [div_le_iff₀ hden]
    linarith
  · rw [le_div_iff₀ hden]
    linarith
  · intro htie
    have hsplit := Nat.div_add_mod num den
    have hmod := Nat.mod_lt num h
    have hmul : (num / den + 1) * den = num / den * den + den := by ring
    have htie' : 2 * num = 2 * (roundQuotient num den * den) + den ∨
        2 * num + den = 2 * (roundQuotient num den * den) := by
      rcases htie with htie | htie <;> rw [div_eq_iff hden.ne'] at htie
      · left
        have hcast : (2 * num : ℚ) = 2 * (roundQuotient num den * den) + den := by linarith
        exact_mod_cast hcast
      · right
        have hcast : (2 * num + den : ℚ) = 2 * (roundQuotient num den * den) := by linarith
        exact_mod_cast hcast
    rw [mul_comm] at hsplit
    unfold roundQuotient at htie' ⊢
    simp only at htie' ⊢
    split at htie'
    · omega
    split at htie'
    · omega
    split at htie'
    next h1 h2 heven => rw [if_neg h1, if_neg h2, if_pos heven]; exact heven
    next h1 h2 hodd => rw [if_neg h1, if_neg h2, if_neg hodd]; omega

end

/-! ## Quotients in a base

A quotient is scaled by a power of a base before it is rounded. The power is chosen such that the whole number
which comes out has a fixed number of digits.
-/

section
variable {b num den p : ℕ} {e i j : ℤ}

theorem cast_pow_toNat (b : ℕ) (h : 0 ≤ e) : ((b ^ e.toNat : ℕ) : ℚ) = b ^ e := by
  rw [Nat.cast_pow, ← zpow_natCast, Int.toNat_of_nonneg h]

theorem cast_tenTo (h : 0 ≤ e) : (tenTo e.toNat : ℚ) = 10 ^ e := cast_pow_toNat 10 h

/-- Comparing a scaled quotient compares the quotient with a power. -/
theorem scaled_le_iff (hb : 0 < b) (hden : 0 < den) :
    (if e < 0 then den * b ^ p ≤ num * b ^ (-e).toNat else den * b ^ e.toNat * b ^ p ≤ num) ↔
      (b : ℚ) ^ (e + p) ≤ num / den := by
  have hden' : (0 : ℚ) < den := by exact_mod_cast hden
  have hb' : (0 : ℚ) < b := by exact_mod_cast hb
  have hpos : (0 : ℚ) < (b : ℚ) ^ (-e) := by positivity
  have hpower : ((b ^ p : ℕ) : ℚ) = (b : ℚ) ^ (e + p) * (b : ℚ) ^ (-e) := by
    rw [← zpow_add₀ hb'.ne', add_neg_cancel_comm, zpow_natCast, Nat.cast_pow]
  rw [le_div_iff₀ hden']
  split
  next he =>
    rw [← @Nat.cast_le ℚ, Nat.cast_mul, Nat.cast_mul, cast_pow_toNat b (by omega), hpower, ← mul_assoc,
      mul_le_mul_iff_left₀ hpos, mul_comm]
  next he =>
    rw [← @Nat.cast_le ℚ, Nat.cast_mul, Nat.cast_mul, cast_pow_toNat b (by omega), Nat.cast_pow, mul_assoc,
      ← zpow_natCast, ← zpow_add₀ hb'.ne', mul_comm]

theorem isNearest_scaled (hb : 0 < b) (hden : 0 < den) :
    IsNearest (if e < 0 then roundQuotient (num * b ^ (-e).toNat) den else roundQuotient num (den * b ^ e.toNat))
      (num / den * (b : ℚ) ^ (-e)) := by
  split
  next he =>
    have hnear : IsNearest _ (((num * b ^ (-e).toNat : ℕ) : ℚ) / den) := isNearest_roundQuotient hden
    rwa [Nat.cast_mul, cast_pow_toNat b (by omega), mul_div_right_comm] at hnear
  next he =>
    have hnear : IsNearest _ ((num : ℚ) / (den * b ^ e.toNat : ℕ)) :=
      isNearest_roundQuotient (Nat.mul_pos hden (Nat.pow_pos hb))
    rwa [Nat.cast_mul, cast_pow_toNat b (by omega), ← div_div, div_eq_mul_inv _ ((b : ℚ) ^ e), ← zpow_neg] at hnear

/-- If numbers have `i` and `j` digits, their quotient has `i - j` digits or one more before the point. -/
theorem leading_digits (hb : 1 < b) (hden : 0 < den) (hnum1 : (b : ℚ) ^ (i - 1) ≤ num) (hnum2 : (num : ℚ) < b ^ i)
    (hden1 : (b : ℚ) ^ (j - 1) ≤ den) (hden2 : (den : ℚ) < b ^ j)
    (he : e = if (b : ℚ) ^ (i - j) ≤ num / den then i - j + 1 else i - j) :
    (b : ℚ) ^ (e - 1) ≤ num / den ∧ (num : ℚ) / den < b ^ e := by
  have hden' : (0 : ℚ) < den := by exact_mod_cast hden
  have hb' : (0 : ℚ) < b := by exact_mod_cast hb.trans' Nat.one_pos
  rw [he]
  split
  next hle =>
    refine ⟨by rwa [add_sub_cancel_right], (div_lt_iff₀ hden').2 ?_⟩
    calc (num : ℚ) < b ^ i := hnum2
      _ = b ^ (i - j + 1) * b ^ (j - 1) := by rw [← zpow_add₀ hb'.ne']; ring_nf
      _ ≤ b ^ (i - j + 1) * den := by gcongr
  next hlt =>
    refine ⟨(le_div_iff₀ hden').2 ?_, not_le.1 hlt⟩
    calc (b : ℚ) ^ (i - j - 1) * den ≤ b ^ (i - j - 1) * b ^ j := by gcongr
      _ = b ^ (i - 1) := by rw [← zpow_add₀ hb'.ne']; ring_nf
      _ ≤ num := hnum1

end

/-! ## Decimals -/

/-- A distance is measured in units of the last digit. -/
theorem abs_scaled_sub (x y : ℚ) (e : ℤ) : |x * 10 ^ e - y| = |x - y * 10 ^ (-e)| * 10 ^ e := by
  have hsplit : x * 10 ^ e - y = (x - y * 10 ^ (-e)) * 10 ^ e := by
    rw [sub_mul, mul_assoc, ← zpow_add₀ (by norm_num), neg_add_cancel, zpow_zero, mul_one]
  rw [hsplit, abs_mul, abs_of_pos (by positivity : (0 : ℚ) < 10 ^ e)]

namespace Decimal

/-- The number that a decimal is, its sign apart. -/
def size (d : Decimal) : ℚ := d.digits * 10 ^ d.exponent

section
variable {d : Decimal} {num den : ℕ} {e : ℤ}

/-- Cutting a decimal to places gives the nearest number of units. -/
theorem isNearest_units (d : Decimal) : IsNearest d.units (d.size * 10 ^ (4 : ℤ)) := by
  have hsize : d.size * 10 ^ (4 : ℤ) = d.digits * 10 ^ (d.exponent + 4) := by
    rw [size, mul_assoc, ← zpow_add₀ (by norm_num)]
  have hplaces : (places : ℤ) = 4 := rfl
  rw [hsize, units, hplaces]
  by_cases he : d.exponent + 4 < 0
  · have hten : (tenTo (-(d.exponent + 4)).toNat : ℚ) = 10 ^ (-(d.exponent + 4)) := cast_tenTo (by omega)
    have hquot : IsNearest _ ((d.digits : ℚ) / tenTo (-(d.exponent + 4)).toNat) := isNearest_roundQuotient (tenTo_pos _)
    rw [hten, zpow_neg, div_inv_eq_mul] at hquot
    simpa only [if_pos he] using hquot
  · have hten : (tenTo (d.exponent + 4).toNat : ℚ) = 10 ^ (d.exponent + 4) := cast_tenTo (by omega)
    have hwhole := isNearest_self (d.digits * tenTo (d.exponent + 4).toNat)
    rw [Nat.cast_mul, hten] at hwhole
    simpa only [if_neg he] using hwhole

/-- A number lies between two powers of ten, as its width says. -/
theorem width_spec (h : 0 < num) :
    (10 : ℚ) ^ ((Shortest.width num : ℤ) - 1) ≤ num ∧ (num : ℚ) < 10 ^ (Shortest.width num : ℤ) := by
  obtain ⟨k, hk⟩ := Nat.exists_eq_succ_of_ne_zero (Nat.length_toDigits_pos (b := 10) (n := num)).ne'
  rw [Shortest.width, hk]
  constructor
  · have hlow : 10 ^ k ≤ num := by
      cases k with
      | zero => exact h
      | succ k =>
        refine Nat.le_of_not_lt fun hlt => ?_
        have hle := (Nat.length_toDigits_le_iff (b := 10) (by decide) (Nat.succ_pos k)).2 hlt
        omega
    have hexp : ((k.succ : ℕ) : ℤ) - 1 = (k : ℤ) := by push_cast; ring
    rw [hexp, zpow_natCast]
    exact_mod_cast hlow
  · have hhigh : num < 10 ^ k.succ := (Nat.length_toDigits_le_iff (by decide) (Nat.succ_pos k)).1 hk.le
    rw [zpow_natCast]
    exact_mod_cast hhigh

/-- The exponent of a quotient leaves 28 digits before the point. -/
theorem quotientExponent_spec (hnum : 0 < num) (hden : 0 < den) :
    (10 : ℚ) ^ (quotientExponent num den + 27) ≤ num / den ∧
      (num : ℚ) / den < 10 ^ (quotientExponent num den + 28) := by
  obtain ⟨hnum1, hnum2⟩ := width_spec hnum
  obtain ⟨hden1, hden2⟩ := width_spec hden
  rw [quotientExponent, show ((precision : ℕ) : ℤ) = 28 from rfl]
  generalize (Shortest.width num : ℤ) = i at *
  generalize (Shortest.width den : ℤ) = j at *
  have hlong : (if i - j - 28 < 0 then den * tenTo precision ≤ num * tenTo (-(i - j - 28)).toNat
      else den * tenTo (i - j - 28).toNat * tenTo precision ≤ num) ↔ ((10 : ℕ) : ℚ) ^ (i - j) ≤ num / den := by
    have hscaled := @scaled_le_iff 10 num den precision (i - j - 28) (by decide) hden
    rwa [show i - j - 28 + (precision : ℕ) = i - j from sub_add_cancel _ _] at hscaled
  simp only [hlong]
  have hspec := leading_digits (by decide : 1 < 10) hden hnum1 hnum2 hden1 hden2
    (e := (if ((10 : ℕ) : ℚ) ^ (i - j) ≤ num / den then i - j - 28 + 1 else i - j - 28) + 28) (by split <;> ring)
  rw [add_sub_assoc, show (28 : ℤ) - 1 = 27 by norm_num] at hspec
  exact hspec

theorem isNearest_quotient (negative : Bool) (hnum : 0 < num) (hden : 0 < den) :
    IsNearest (quotient negative num den).digits (num / den * 10 ^ (-(quotient negative num den).exponent)) ∧
      (quotient negative num den).exponent = quotientExponent num den := by
  rw [quotient, if_neg hnum.ne']
  exact ⟨isNearest_scaled (b := 10) (by decide) hden, rfl⟩

/-- Greater quotients have decimals that are not less. -/
theorem size_quotient_mono {num' den' : ℕ} (hnum : 0 < num) (hden : 0 < den) (hnum' : 0 < num') (hden' : 0 < den')
    (h : (num : ℚ) / den ≤ num' / den') : (quotient false num den).size ≤ (quotient false num' den').size := by
  obtain ⟨hlow, hhigh⟩ := quotientExponent_spec hnum hden
  obtain ⟨hlow', hhigh'⟩ := quotientExponent_spec hnum' hden'
  obtain ⟨hnear, he⟩ := isNearest_quotient false hnum hden
  obtain ⟨hnear', he'⟩ := isNearest_quotient false hnum' hden'
  rw [size, size]
  rw [he] at hnear ⊢
  rw [he'] at hnear' ⊢
  generalize quotientExponent num den = e at *
  generalize quotientExponent num' den' = e' at *
  have hten : ∀ {a b c : ℤ}, a + b = c → (10 : ℚ) ^ a * 10 ^ b = 10 ^ c := fun h => by
    rw [← zpow_add₀ (by norm_num), h]
  have hpos : ∀ k : ℤ, (0 : ℚ) < 10 ^ k := fun k => by positivity
  have hle : e ≤ e' := by
    have hlt := (zpow_lt_zpow_iff_right₀ (by norm_num : (1 : ℚ) < 10)).1 (hlow.trans_lt (h.trans_lt hhigh'))
    omega
  rcases hle.eq_or_lt with rfl | hlt
  · have hdigits : (quotient false num den).digits ≤ (quotient false num' den').digits :=
      hnear.mono hnear' (mul_le_mul_of_nonneg_right h (hpos _).le)
    have hcast : ((quotient false num den).digits : ℚ) ≤ (quotient false num' den').digits := by exact_mod_cast hdigits
    exact mul_le_mul_of_nonneg_right hcast (hpos e).le
  · -- There is a power of ten between the two decimals.
    have hdigits : (quotient false num den).digits ≤ 10 ^ 28 := by
      refine hnear.mono (isNearest_self _) ?_
      rw [zpow_neg, ← div_eq_mul_inv, div_le_iff₀ (hpos e), Nat.cast_pow, Nat.cast_ofNat]
      refine hhigh.le.trans_eq ?_
      rw [← hten (add_comm 28 e)]
      norm_num
    have hdigits' : 10 ^ 27 ≤ (quotient false num' den').digits := by
      refine (isNearest_self _).mono hnear' ?_
      rw [zpow_neg, ← div_eq_mul_inv, le_div_iff₀ (hpos e'), Nat.cast_pow, Nat.cast_ofNat]
      refine Eq.trans_le ?_ hlow'
      rw [← hten (add_comm 27 e')]
      norm_num
    have hcast : ((quotient false num den).digits : ℚ) ≤ 10 ^ 28 := by exact_mod_cast hdigits
    have hcast' : (10 : ℚ) ^ 27 ≤ (quotient false num' den').digits := by exact_mod_cast hdigits'
    calc ((quotient false num den).digits : ℚ) * 10 ^ e ≤ 10 ^ 28 * 10 ^ e := by gcongr
      _ = 10 ^ 27 * 10 ^ (e + 1) := by rw [zpow_add₀ (by norm_num)]; ring
      _ ≤ 10 ^ 27 * 10 ^ e' := by gcongr <;> norm_num; omega
      _ ≤ (quotient false num' den').digits * 10 ^ e' := by gcongr

/-- The decimal of a quotient is off by at most half a unit of its last digit. -/
theorem size_quotient_near (hnum : 0 < num) (hden : 0 < den) :
    |(quotient false num den).size - num / den| ≤ 10 ^ quotientExponent num den / 2 := by
  obtain ⟨hnear, he⟩ := isNearest_quotient false hnum hden
  rw [he] at hnear
  rw [size, he, abs_scaled_sub]
  calc _ ≤ 1 / 2 * 10 ^ quotientExponent num den :=
        mul_le_mul_of_nonneg_right hnear.abs_sub_le (by positivity)
    _ = _ := by ring

/-- The decimal of a quotient is off by less than a part in 10^27. -/
theorem size_quotient_within (hnum : 0 < num) (hden : 0 < den) :
    |(quotient false num den).size - num / den| ≤ num / den * 10 ^ (-27 : ℤ) := by
  obtain ⟨hlow, -⟩ := quotientExponent_spec hnum hden
  refine (size_quotient_near hnum hden).trans ?_
  generalize quotientExponent num den = e at *
  calc (10 : ℚ) ^ e / 2 ≤ 10 ^ (e + 27) * 10 ^ (-27 : ℤ) := by
        rw [← zpow_add₀ (by norm_num), add_neg_cancel_right]
        linarith [show (0 : ℚ) < 10 ^ e by positivity]
    _ ≤ num / den * 10 ^ (-27 : ℤ) := by gcongr

end

end Decimal

/-! ## Scores -/

namespace Score

section
variable {p q : ℚ}

theorem cast_natAbs_num_div (h : 0 ≤ q) : ((q.num.natAbs : ℕ) : ℚ) / q.den = q := by
  have hnum : ((q.num.natAbs : ℕ) : ℚ) = q.num := by
    rw [← Int.cast_natCast, Int.natAbs_of_nonneg (Rat.num_nonneg.2 h)]
  rw [hnum, Rat.num_div_den]

/-- **Order.** Greater ratios have scores that are not less. -/
theorem units_mono (hp : 0 ≤ p) (h : p ≤ q) : (ofRat p).units ≤ (ofRat q).units := by
  rcases hp.eq_or_lt with rfl | hpos
  · have hzero : (ofRat 0).units = 0 := rfl
    rw [hzero]
    exact Nat.zero_le _
  have hnum : ∀ {r : ℚ}, 0 < r → 0 < r.num.natAbs := fun hr => Int.natAbs_pos.2 (Rat.num_pos.2 hr).ne'
  have hsize := Decimal.size_quotient_mono (hnum hpos) p.den_pos (hnum (hpos.trans_le h)) q.den_pos (by
    rwa [cast_natAbs_num_div hp, cast_natAbs_num_div (hp.trans h)])
  exact (Decimal.isNearest_units _).mono (Decimal.isNearest_units _) (mul_le_mul_of_nonneg_right hsize (by norm_num))

/-- **Error.** A score is off by little more than half of a ten-thousandth. -/
theorem units_within (hq : 0 ≤ q) (hq1 : q ≤ 1) : |((ofRat q).units : ℚ) - q * 10 ^ 4| ≤ 1 / 2 + 1 / 10 ^ 20 := by
  have hnear := (Decimal.isNearest_units (Decimal.quotient false q.num.natAbs q.den)).abs_sub_le
  have hsize : |(Decimal.quotient false q.num.natAbs q.den).size - q| ≤ 10 ^ (-27 : ℤ) := by
    rcases hq.eq_or_lt with rfl | hpos
    · have hzero : (Decimal.quotient false (0 : ℚ).num.natAbs (0 : ℚ).den).size = 0 := by
        simp [Decimal.quotient, Decimal.size]
      rw [hzero]
      norm_num
    · have hwithin := Decimal.size_quotient_within (Int.natAbs_pos.2 (Rat.num_pos.2 hpos).ne') q.den_pos
      rw [cast_natAbs_num_div hq] at hwithin
      exact hwithin.trans (mul_le_of_le_one_left (by positivity) hq1)
  rw [ofRat, ofRatio]
  generalize (Decimal.quotient false q.num.natAbs q.den) = d at *
  obtain ⟨hlow, hhigh⟩ := abs_le.1 hnear
  obtain ⟨hlow', hhigh'⟩ := abs_le.1 hsize
  norm_num at hlow hhigh hlow' hhigh' ⊢
  rw [abs_le]
  constructor <;> linarith

/-- The score of a ratio of at most one has at most ten thousand units. -/
theorem units_le (hq : 0 ≤ q) (hq1 : q ≤ 1) : (ofRat q).units ≤ 10000 := by
  obtain ⟨-, hhigh⟩ := abs_le.1 (units_within hq hq1)
  have hlt : ((ofRat q).units : ℚ) < 10001 := by
    norm_num at hhigh
    linarith
  have hnat : (ofRat q).units < 10001 := by exact_mod_cast hlt
  omega

end

end Score

end Assay
