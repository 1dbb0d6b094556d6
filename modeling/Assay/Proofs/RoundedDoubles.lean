import Assay.Proofs.DoubleValues

/-!
# Rounded doubles

A double that stands for a number which it cannot hold is off by at most a part in 2^52 (`Approximates`). That
is so for the double of a decimal, of an integer, and for the difference of two doubles, whose exact value is
rounded once.
-/

namespace Assay.Binary64

open Float.Model UnpackedFloat

/-- Finite parts whose value is off from a number by at most a part in 2^52. -/
structure Approximates (u : UnpackedFloat) (q : ℚ) : Prop where
  finite : u.isFinite = true
  error : |valueOf u - q| ≤ |q| / 2 ^ 52

/-- Parts as a double keeps them. -/
abbrev kept (u : UnpackedFloat) : UnpackedFloat := unpack Format.binary64 (UnpackedFloat.pack Format.binary64 u)

section
variable {x y : Float} {q : ℚ} {s : Sign} {m r num den : ℕ} {a e t : ℤ}

theorem cast_apply (s : Sign) (n : ℕ) : (s.apply n : ℚ) = s.apply 1 * n := by cases s <;> simp [Sign.apply]

theorem abs_apply_mul (s : Sign) (q : ℚ) : |(s.apply 1 : ℚ) * q| = |q| := by cases s <;> simp [Sign.apply]

/-! ## Rounding a mantissa -/

theorem targetExponent_binary64 (t : ℤ) : Format.binary64.targetExponent t = max (t - 53) (-1074) := rfl

theorem mantissa_shiftRight (em : ExtendedMantissa) (k : ℕ) : (em >>> k).mantissa = em.mantissa / 2 ^ k := by
  induction k with
  | zero => rw [pow_zero, Nat.div_one]; rfl
  | succ k ih =>
    have hstep : (em >>> (k + 1)).mantissa = (em >>> k).mantissa / 2 := rfl
    rw [hstep, ih, Nat.div_div_eq_div_mul, pow_succ]

theorem roundedMantissa_bounds (em : ExtendedMantissa) :
    em.mantissa ≤ em.roundedMantissa ∧ em.roundedMantissa ≤ em.mantissa + 1 := by
  rcases em with ⟨m, _ | _, _ | _⟩ <;>
    simp only [ExtendedMantissa.roundedMantissa, ExtendedMantissa.accuracy, Accuracy.roundToNearestEven] <;> omega

/-- A mantissa that rounding has carried to 2^53 is halved, all others are kept. -/
theorem shiftToTargetExponent_carry (hmost : r ≤ 2 ^ 53) (hleast : -1074 ≤ t) (hgreatest : t ≤ 960)
    (hfull : 2 ^ 52 ≤ r ∨ t = -1074) : ∃ em k, shiftToTargetExponent Format.binary64 r t .exact = (em, k) ∧
      IsCanonical em.mantissa k ∧ k ≤ 970 ∧ (em.mantissa : ℚ) * 2 ^ k = r * 2 ^ t := by
  refine ⟨_, _, rfl, ?_⟩
  rw [targetExponent_binary64, totalExponent, mantissa_shiftRight, ExtendedMantissa.ofMantissaAndAccuracy]
  rcases hmost.lt_or_eq with hlt | rfl
  · have hshift : (max ((r.log2 : ℤ) + 1 + t - 53) (-1074) - t).toNat = 0 := by
      rcases Nat.eq_zero_or_pos r with rfl | hpos
      · simp only [Nat.log2_zero]
        omega
      · have hlog : r.log2 < 53 := (Nat.log2_lt hpos.ne').2 hlt
        omega
    rw [hshift, pow_zero, Nat.div_one, Nat.cast_zero, add_zero]
    exact ⟨⟨hlt, hleast, by omega, hfull⟩, by omega, rfl⟩
  · have hshift : (max (((2 ^ 53 : ℕ).log2 : ℤ) + 1 + t - 53) (-1074) - t).toNat = 1 := by
      rw [Nat.log2_two_pow]
      omega
    rw [hshift]
    refine ⟨⟨by norm_num, by omega, by omega, .inl (by norm_num)⟩, by omega, ?_⟩
    rw [Nat.cast_one, zpow_add_one₀ (by norm_num)]
    norm_num
    ring

/-- Cutting off bits and rounding gives one of the two next mantissas. -/
theorem roundedMantissa_shiftRight (m k : ℕ) :
    ∃ r, (ExtendedMantissa.ofMantissaAndAccuracy m .exact >>> k).roundedMantissa = r ∧ m / 2 ^ k ≤ r ∧
      r ≤ m / 2 ^ k + 1 ∧ r * 2 ^ k ≤ m + 2 ^ k ∧ m ≤ r * 2 ^ k + 2 ^ k ∧ (k = 0 → r = m) := by
  have hcut : (ExtendedMantissa.ofMantissaAndAccuracy m .exact >>> k).mantissa = m / 2 ^ k := mantissa_shiftRight _ _
  obtain ⟨hlow, hhigh⟩ := roundedMantissa_bounds (ExtendedMantissa.ofMantissaAndAccuracy m .exact >>> k)
  rw [hcut] at hlow hhigh
  refine ⟨_, rfl, hlow, hhigh, ?_, ?_, by rintro rfl; rfl⟩
  all_goals
    generalize ExtendedMantissa.roundedMantissa _ = r at *
    have hsplit := Nat.div_add_mod m (2 ^ k)
    have hmod := Nat.mod_lt m (Nat.two_pow_pos k)
    have h1 : r * 2 ^ k ≤ (m / 2 ^ k + 1) * 2 ^ k := Nat.mul_le_mul_right _ hhigh
    have h2 : m / 2 ^ k * 2 ^ k ≤ r * 2 ^ k := Nat.mul_le_mul_right _ hlow
    rw [Nat.add_mul, Nat.one_mul] at h1
    rw [mul_comm] at hsplit
    omega

/-- Cutting a mantissa to 53 bits and rounding it changes a number by at most a part in 2^52. -/
theorem roundWithAccuracy_within (s : Sign) (hm : 0 < m) (hsize : (m.log2 : ℤ) + e ≤ 1000) (hleast : -1074 ≤ e)
    (he : e ≤ max ((m.log2 : ℤ) + 1 + e - 53) (-1074)) :
    ∃ n k h, roundWithAccuracy Format.binary64 s m e .exact = .finite s n k h ∧ IsCanonical n k ∧ k ≤ 970 ∧
      |(n : ℚ) * 2 ^ k - m * 2 ^ e| ≤ m * 2 ^ e / 2 ^ 52 := by
  obtain ⟨hlow, hhigh⟩ : 2 ^ m.log2 ≤ m ∧ m < 2 ^ (m.log2 + 1) := ⟨Nat.log2_self_le hm.ne', Nat.lt_log2_self⟩
  -- What is cut off are the bits beyond the 53 highest ones; with fewer bits the exponent is the least one.
  obtain ⟨c, hc, hform⟩ : ∃ c : ℕ, (max ((m.log2 : ℤ) + 1 + e - 53) (-1074) - e).toNat = c ∧
      (m.log2 = 52 + c ∨ c = 0 ∧ m.log2 < 52 ∧ e = -1074) := ⟨_, rfl, by omega⟩
  obtain ⟨r, hr, hge, hle, hr1, hr2, hr0⟩ := roundedMantissa_shiftRight m c
  have hfirst : shiftToTargetExponent Format.binary64 m e .exact =
      (ExtendedMantissa.ofMantissaAndAccuracy m .exact >>> c, e + c) := by
    rw [shiftToTargetExponent, shiftToExponent, targetExponent_binary64, totalExponent, hc]
  have hpow : (2 : ℚ) ^ (e + c) = 2 ^ c * 2 ^ e := by rw [zpow_add₀ (by norm_num), zpow_natCast, mul_comm]
  have hpos : (0 : ℚ) < 2 ^ e := by positivity
  -- The cut mantissa has 53 bits, or it has not been cut at all.
  have hcut : r ≤ 2 ^ 53 ∧ (2 ^ 52 ≤ r ∨ e + c = -1074) ∧ (2 ^ 52 * 2 ^ c ≤ m ∨ c = 0) := by
    rcases hform with hlog | ⟨rfl, hlog, rfl⟩
    · rw [hlog, pow_add] at hlow
      rw [hlog, add_right_comm, pow_add] at hhigh
      have hdiv : m / 2 ^ c < 2 ^ 53 := Nat.div_lt_of_lt_mul (by rwa [mul_comm])
      have hdiv' : 2 ^ 52 ≤ m / 2 ^ c := (Nat.le_div_iff_mul_le (Nat.two_pow_pos c)).2 hlow
      exact ⟨by omega, .inl (by omega), .inl hlow⟩
    · have hlt : m < 2 ^ 52 := hhigh.trans_le (Nat.pow_le_pow_right (by decide) hlog)
      rw [hr0 rfl]
      exact ⟨by omega, .inr rfl, .inr rfl⟩
  obtain ⟨hmost, hfull, herror⟩ := hcut
  obtain ⟨em, k, hsecond, hcanonical, hk, hvalue⟩ :=
    shiftToTargetExponent_carry (r := r) (t := e + c) hmost (by omega) (by omega) hfull
  have hrpos : 0 < r := by
    rcases Nat.eq_zero_or_pos r with rfl | hrpos
    · rcases herror with herror | rfl
      · omega
      · exact absurd (hr0 rfl) hm.ne
    · exact hrpos
  have hzero : em.mantissa ≠ 0 := by
    intro hzero
    rw [hzero, Nat.cast_zero, zero_mul] at hvalue
    have hrpos' : (0 : ℚ) < r := by exact_mod_cast hrpos
    have : (0 : ℚ) < r * 2 ^ (e + c) := by positivity
    linarith
  refine ⟨em.mantissa, k, Nat.pos_of_ne_zero hzero, ?_, hcanonical, hk, ?_⟩
  · rw [roundWithAccuracy, hfirst]
    simp only [hr, hsecond]
    rw [dif_neg hzero]
  · have hdiff : |(r : ℚ) * 2 ^ c - m| ≤ m / 2 ^ 52 := by
      rcases herror with herror | rfl
      · have h1 : (r : ℚ) * 2 ^ c ≤ m + 2 ^ c := by exact_mod_cast hr1
        have h2 : (m : ℚ) ≤ r * 2 ^ c + 2 ^ c := by exact_mod_cast hr2
        have h3 : (2 : ℚ) ^ 52 * 2 ^ c ≤ m := by exact_mod_cast herror
        have h4 : (2 : ℚ) ^ c ≤ m / 2 ^ 52 := by rwa [le_div_iff₀ (by norm_num), mul_comm]
        exact abs_le.2 ⟨by linarith, by linarith⟩
      · rw [hr0 rfl, pow_zero, mul_one, sub_self, abs_zero]
        positivity
    rw [hvalue, hpow, ← mul_assoc, ← sub_mul, abs_mul, abs_of_pos hpos, mul_div_right_comm]
    exact mul_le_mul_of_nonneg_right hdiff hpos.le

/-- **Rounding.** A multiple of a power of two is rounded to a double that is off by at most a part in 2^52. -/
theorem round_within (s : Sign) (hm : 0 < m) (hleast : -1074 ≤ e) (hsize : (m.log2 : ℤ) + e ≤ 1000) :
    ∃ n k h, UnpackedFloat.round Format.binary64 s m e = .finite s n k h ∧ IsCanonical n k ∧ k ≤ 970 ∧
      |(n : ℚ) * 2 ^ k - m * 2 ^ e| ≤ m * 2 ^ e / 2 ^ 52 := by
  obtain ⟨j, hj, hle⟩ : ∃ j : ℕ, (e - max ((m.log2 : ℤ) + 1 + e - 53) (-1074)).toNat = j ∧ e - j ≥ -1074 :=
    ⟨_, rfl, by omega⟩
  have hlog : (m <<< j).log2 = m.log2 + j := by
    rw [Nat.shiftLeft_eq, Nat.log2_eq_iff (by positivity), add_right_comm, pow_add, pow_add]
    exact ⟨Nat.mul_le_mul_right _ (Nat.log2_self_le hm.ne'), Nat.mul_lt_mul_of_pos_right Nat.lt_log2_self
      (Nat.two_pow_pos j)⟩
  have hvalue : ((m <<< j : ℕ) : ℚ) * 2 ^ (e - j) = m * 2 ^ e := by
    rw [Nat.shiftLeft_eq, Nat.cast_mul, Nat.cast_pow, Nat.cast_ofNat, ← zpow_natCast, mul_assoc,
      ← zpow_add₀ (by norm_num), add_sub_cancel]
  obtain ⟨n, k, h, hround, hcanonical, hk, herror⟩ := roundWithAccuracy_within (m := m <<< j) (e := e - j) s
    (by rw [Nat.shiftLeft_eq]; positivity) (by omega) hle (by omega)
  refine ⟨n, k, h, ?_, hcanonical, hk, by rwa [hvalue] at herror⟩
  rw [UnpackedFloat.round, decreaseExponent, targetExponent_binary64, totalExponent, hj]
  exact hround

/-! ## Differences -/

theorem cast_decreaseExponent (m : ℕ) (h : t ≤ e) : ((decreaseExponent m e t).1 : ℚ) * 2 ^ t = m * 2 ^ e := by
  have hshift : ((e - t).toNat : ℤ) = e - t := Int.toNat_of_nonneg (by omega)
  rw [decreaseExponent, Nat.shiftLeft_eq, Nat.cast_mul, Nat.cast_pow, Nat.cast_ofNat, ← zpow_natCast, hshift, mul_assoc,
    ← zpow_add₀ (by norm_num), sub_add_cancel]

theorem log2_add_le (hm : 0 < m) (h : (m : ℚ) * 2 ^ e ≤ 2 ^ t) : (m.log2 : ℤ) + e ≤ t := by
  have hlow : ((2 ^ m.log2 : ℕ) : ℚ) ≤ m := by exact_mod_cast Nat.log2_self_le hm.ne'
  rw [Nat.cast_pow, Nat.cast_ofNat, ← zpow_natCast] at hlow
  refine (zpow_le_zpow_iff_right₀ (by norm_num : (1 : ℚ) < 2)).1 ?_
  rw [zpow_add₀ (by norm_num)]
  exact (mul_le_mul_of_nonneg_right hlow (by positivity)).trans h

theorem kept_zero (s : Sign) : kept (.zero s) = .zero s := by cases s <;> rfl

/-- A double keeps what is rounded. -/
theorem approximates_round (s : Sign) (hm : 0 < m) (hleast : -1074 ≤ e) (hsize : (m : ℚ) * 2 ^ e ≤ 2 ^ (200 : ℤ)) :
    Approximates (kept (UnpackedFloat.round Format.binary64 s m e)) (s.apply m * 2 ^ e) := by
  obtain ⟨n, k, h, hround, hcanonical, hk, herror⟩ := round_within s hm hleast ((log2_add_le hm hsize).trans (by decide))
  obtain ⟨hfinite, hvalue⟩ := value_of_pack (s := s) hcanonical hk h
  rw [hround]
  refine ⟨hfinite, ?_⟩
  rw [hvalue]
  rwa [cast_apply, cast_apply, mul_assoc, mul_assoc, ← mul_sub, abs_apply_mul, abs_apply_mul,
    abs_of_nonneg (show (0 : ℚ) ≤ m * 2 ^ e by positivity)]

theorem approximates_normalize (hleast : -1074 ≤ e) (hsize : |(a : ℚ) * 2 ^ e| ≤ 2 ^ (200 : ℤ)) :
    Approximates (kept (UnpackedFloat.normalize Format.binary64 a e .positive)) (a * 2 ^ e) := by
  have hround : ∀ {s : Sign} {m : ℕ}, 0 < m → a = s.apply m →
      Approximates (kept (UnpackedFloat.round Format.binary64 s m e)) (a * 2 ^ e) := by
    rintro s m hm rfl
    refine approximates_round s hm hleast (le_trans (le_of_eq ?_) hsize)
    rw [cast_apply, mul_assoc, abs_apply_mul, abs_of_nonneg (by positivity)]
  rw [UnpackedFloat.normalize]
  cases hsign : compare a 0 with
  | lt =>
    have hlt := compare_lt_iff_lt.1 hsign
    exact hround (s := .negative) (by omega) (by simp only [Sign.apply]; omega)
  | eq =>
    rw [compare_eq_iff_eq.1 hsign]
    simp only [kept_zero]
    exact ⟨rfl, by simp [valueOf]⟩
  | gt =>
    have hgt := compare_gt_iff_gt.1 hsign
    exact hround (s := .positive) (by omega) (by simp only [Sign.apply]; omega)

/-- Parts of a double that is not too large. -/
structure IsModerate (u : UnpackedFloat) : Prop where
  finite : u.isFinite = true
  canonical : ∀ s m e h, u = .finite s m e h → IsCanonical m e
  size : |valueOf u| ≤ 2 ^ (100 : ℤ)

theorem approximates_self {u : UnpackedFloat} (h : u.isFinite = true) : Approximates u (valueOf u) :=
  ⟨h, by rw [sub_self, abs_zero]; positivity⟩

theorem approximates_kept {u : UnpackedFloat} (h : IsModerate u) : Approximates (kept u) (valueOf u) := by
  cases u with
  | zero s => rw [kept_zero]; exact approximates_self rfl
  | finite s m e hm =>
    have hc := h.canonical s m e hm rfl
    have hsize : (m : ℚ) * 2 ^ e ≤ 2 ^ (100 : ℤ) := by
      refine le_trans (le_of_eq ?_) h.size
      rw [valueOf, cast_apply, mul_assoc, abs_apply_mul, abs_of_nonneg (by positivity)]
    have hle := log2_add_le hm hsize
    obtain ⟨hfinite, hvalue⟩ := value_of_pack (s := s) hc (by omega) hm
    exact ⟨hfinite, by rw [hvalue, valueOf, sub_self, abs_zero]; positivity⟩
  | _ => exact absurd h.finite Bool.false_ne_true

theorem IsModerate.neg {u : UnpackedFloat} (h : IsModerate u) : IsModerate u.neg := by
  refine ⟨?_, fun s m e hm hu => ?_, by rw [valueOf_neg, abs_neg]; exact h.size⟩
  · have hfinite := h.finite
    cases u <;> exact hfinite
  · cases u with
    | finite s' m' e' hm' =>
      obtain ⟨-, rfl, rfl⟩ := UnpackedFloat.finite.inj hu
      exact h.canonical s' _ _ hm' rfl
    | _ => cases hu

theorem approximates_subParts {u v : UnpackedFloat} (hu : IsModerate u) (hv : IsModerate v) :
    Approximates (kept (UnpackedFloat.sub Format.binary64 u v)) (valueOf u - valueOf v) := by
  have hsize : |valueOf u - valueOf v| ≤ 2 ^ (200 : ℤ) := by
    refine (abs_sub _ _).trans ((add_le_add hu.size hv.size).trans ?_)
    norm_num
  rcases u with s | _ | s | ⟨s, m, e, hm⟩ <;> rcases v with t | _ | t | ⟨t, n, k, hn⟩
  all_goals try exact absurd hu.finite Bool.false_ne_true
  all_goals try exact absurd hv.finite Bool.false_ne_true
  · have hzero : UnpackedFloat.sub Format.binary64 (.zero s) (.zero t) = .zero s ∨
        UnpackedFloat.sub Format.binary64 (.zero s) (.zero t) = .zero .positive := by
      rw [UnpackedFloat.sub]
      split
      · exact .inl rfl
      · exact .inr rfl
    rcases hzero with hzero | hzero <;> rw [hzero, kept_zero] <;> exact ⟨rfl, by simp [valueOf]⟩
  · have hneg := approximates_kept hv.neg
    rw [valueOf_neg] at hneg
    rw [← zero_sub] at hneg
    exact hneg
  · have hkept := approximates_kept hu
    rw [← sub_zero (valueOf (.finite s m e hm))] at hkept
    exact hkept
  · have hc := hu.canonical s m e hm rfl
    have hd := hv.canonical t n k hn rfl
    have hvalue : ((s.apply (decreaseExponent m e (min e k)).1 - t.apply (decreaseExponent n k (min e k)).1 : ℤ) : ℚ) *
        2 ^ min e k = valueOf (.finite s m e hm) - valueOf (.finite t n k hn) := by
      have hm' := cast_decreaseExponent m (min_le_left e k)
      have hn' := cast_decreaseExponent n (min_le_right e k)
      cases s <;> cases t <;> simp [Sign.apply, valueOf, sub_mul, add_mul, neg_mul, hm', hn']
    have hleast : -1074 ≤ min e k := le_min hc.least hd.least
    rw [← hvalue] at hsize ⊢
    exact approximates_normalize hleast hsize

/-- **Difference.** The difference of two doubles that are not too large is rounded once. -/
theorem approximates_sub (hx : IsModerate (parts x)) (hy : IsModerate (parts y)) :
    Approximates (parts (x - y)) (value x - value y) := approximates_subParts hx hy

/-! ## Quotients -/

/-- The sign of a number that is negative or not. -/
def signOf (negative : Bool) : Sign := if negative then .negative else .positive

theorem parts_ofBits {n : ℕ} (hn : n < 2 ^ 64) (h : n / 2 ^ 52 % 2 ^ 11 ≠ 2047) :
    parts (Float.ofBits (UInt64.ofNat n)) = unpack Format.binary64 (BitVec.ofNat 64 n) := by
  have hvalid : Format.binary64.Valid (BitVec.ofNat 64 n) := by
    refine ⟨fun he => absurd ((unpackExponent_eq_iff _ 2047 (by decide)).1 he) ?_⟩
    rwa [BitVec.toNat_ofNat, Nat.mod_eq_of_lt hn]
  exact congrArg (unpack Format.binary64) (pack_unpack_of_valid hvalid)

theorem value_ofFields (negative : Bool) (hmost : m ≤ 2 ^ 53) (hleast : -1074 ≤ e) (hgreatest : e ≤ 970)
    (hfull : 2 ^ 52 ≤ m ∨ e = -1074) :
    (parts (ofFields negative ((e + 1074).toNat * twoTo 52 + m))).isFinite = true ∧
      value (ofFields negative ((e + 1074).toNat * twoTo 52 + m)) = (signOf negative).apply m * 2 ^ e := by
  have h52 : twoTo 52 = 2 ^ 52 := rfl
  have hsign : (if negative then twoTo 63 else 0) = if isNegative (signOf negative) then 2 ^ 63 else 0 := by
    cases negative <;> rfl
  rw [value, ofFields, hsign, h52]
  generalize hn : (if isNegative (signOf negative) then 2 ^ 63 else 0) + ((e + 1074).toNat * 2 ^ 52 + m) = n
  have hlt : n < 2 ^ 64 := by split at hn <;> omega
  have hfield : n / 2 ^ 52 % 2 ^ 11 ≠ 2047 := by split at hn <;> omega
  rw [parts_ofBits hlt hfield]
  refine value_of_bits ?_ hmost hleast hgreatest hfull
  rw [BitVec.toNat_ofNat, Nat.mod_eq_of_lt hlt, hn]

theorem exponentOf_spec (hnum : 0 < num) (hden : 0 < den) (hleast : (2 : ℚ) ^ (-1000 : ℤ) ≤ num / den) :
    (2 : ℚ) ^ (exponentOf num den + 52) ≤ num / den ∧ (num : ℚ) / den < 2 ^ (exponentOf num den + 53) := by
  have hbits : ∀ {n : ℕ}, 0 < n →
      ((2 : ℕ) : ℚ) ^ ((n.log2 + 1 : ℤ) - 1) ≤ n ∧ (n : ℚ) < ((2 : ℕ) : ℚ) ^ (n.log2 + 1 : ℤ) := by
    intro n hn
    rw [add_sub_cancel_right]
    norm_cast
    exact ⟨Nat.log2_self_le hn.ne', Nat.lt_log2_self⟩
  obtain ⟨hnum1, hnum2⟩ := hbits hnum
  obtain ⟨hden1, hden2⟩ := hbits hden
  rw [exponentOf]
  generalize (num.log2 : ℤ) = i at *
  generalize (den.log2 : ℤ) = j at *
  have hbelow : (if i - j - 52 < 0 then num * twoTo (-(i - j - 52)).toNat < den * twoTo 52
      else num < den * twoTo (i - j - 52).toNat * twoTo 52) ↔ ¬ ((2 : ℕ) : ℚ) ^ (i + 1 - (j + 1)) ≤ num / den := by
    have hscaled := @scaled_le_iff 2 num den 52 (i - j - 52) (by decide) hden
    rw [show i - j - 52 + (52 : ℕ) = i + 1 - (j + 1) by push_cast; ring] at hscaled
    rw [← hscaled]
    split <;> exact not_le.symm
  simp only [hbelow, ite_not]
  obtain ⟨hlow, hhigh⟩ := leading_digits (by decide : 1 < 2) hden hnum1 hnum2 hden1 hden2
    (e := (if ((2 : ℕ) : ℚ) ^ (i + 1 - (j + 1)) ≤ num / den then i - j - 52 else i - j - 52 - 1) + 53) (by split <;> ring)
  generalize (if ((2 : ℕ) : ℚ) ^ (i + 1 - (j + 1)) ≤ num / den then i - j - 52 else i - j - 52 - 1) = e at *
  rw [add_sub_assoc, show (53 : ℤ) - 1 = 52 by norm_num] at hlow
  have hexp := (zpow_lt_zpow_iff_right₀ (by norm_num : (1 : ℚ) < 2)).1 (hleast.trans_lt hhigh)
  rw [max_eq_right (by omega)]
  exact ⟨hlow, hhigh⟩

/-- The nearest double has 53 bits, and half a unit of its last place is at most a part in 2^53. -/
theorem nearestBits_spec (hnum : 0 < num) (hden : 0 < den) (hleast : (2 : ℚ) ^ (-1000 : ℤ) ≤ num / den)
    (hgreatest : (num : ℚ) / den ≤ 2 ^ (200 : ℤ)) :
    ∃ (m : ℕ) (e : ℤ), nearestBits num den = (e + 1074).toNat * twoTo 52 + m ∧ 2 ^ 52 ≤ m ∧ m ≤ 2 ^ 53 ∧ -1074 ≤ e ∧
      e ≤ 200 ∧ |(m : ℚ) * 2 ^ e - num / den| ≤ num / den / 2 ^ 52 := by
  obtain ⟨hlow, hhigh⟩ := exponentOf_spec hnum hden hleast
  have hnear : IsNearest (scaledQuotient num den (exponentOf num den)) (num / den * 2 ^ (-exponentOf num den)) :=
    isNearest_scaled (b := 2) (by decide) hden
  rw [nearestBits, if_neg hnum.ne']
  simp only
  generalize exponentOf num den = e at *
  generalize scaledQuotient num den e = m at *
  have hexp1 := (zpow_lt_zpow_iff_right₀ (by norm_num : (1 : ℚ) < 2)).1 (hleast.trans_lt hhigh)
  have hexp2 := (zpow_le_zpow_iff_right₀ (by norm_num : (1 : ℚ) < 2)).1 (hlow.trans hgreatest)
  have hpos : (0 : ℚ) < 2 ^ e := by positivity
  obtain ⟨w, hw⟩ : ∃ w : ℚ, (num : ℚ) / den * 2 ^ (-e) = w := ⟨_, rfl⟩
  have hquot : (num : ℚ) / den = w * 2 ^ e := by
    rw [← hw, mul_assoc, ← zpow_add₀ (by norm_num), neg_add_cancel, zpow_zero, mul_one]
  rw [hw] at hnear
  rw [hquot] at hlow hhigh ⊢
  rw [add_comm, zpow_add₀ (by norm_num), mul_le_mul_iff_left₀ hpos] at hlow
  rw [add_comm, zpow_add₀ (by norm_num), mul_lt_mul_iff_left₀ hpos] at hhigh
  have hm1 : 2 ^ 52 ≤ m := (isNearest_self _).mono hnear (by exact_mod_cast hlow)
  have hm2 : m ≤ 2 ^ 53 := hnear.mono (isNearest_self _) (by exact_mod_cast hhigh.le)
  have hinfinity : infinityBits = 2047 * 2 ^ 52 := rfl
  have h52 : twoTo 52 = 2 ^ 52 := rfl
  refine ⟨m, e, min_eq_left (by rw [hinfinity, h52]; omega), hm1, hm2, by omega, by omega, ?_⟩
  rw [← sub_mul, abs_mul, abs_of_pos hpos, mul_div_right_comm]
  refine mul_le_mul_of_nonneg_right (hnear.abs_sub_le.trans ?_) hpos.le
  rw [le_div_iff₀ (by norm_num)]
  norm_num at hlow ⊢
  linarith

/-- The double nearest to a quotient. -/
theorem approximates_nearest (negative : Bool) (hnum : 0 < num) (hden : 0 < den)
    (hleast : (2 : ℚ) ^ (-1000 : ℤ) ≤ num / den) (hgreatest : (num : ℚ) / den ≤ 2 ^ (200 : ℤ)) :
    Approximates (parts (nearest negative num den)) ((signOf negative).apply 1 * (num / den)) := by
  obtain ⟨m, e, hbits, hm1, hm2, he1, he2, herror⟩ := nearestBits_spec hnum hden hleast hgreatest
  obtain ⟨hfinite, hvalue⟩ := value_ofFields (e := e) negative hm2 he1 (by omega) (.inl hm1)
  rw [nearest, hbits]
  refine ⟨hfinite, ?_⟩
  rw [value] at hvalue
  rwa [hvalue, cast_apply, mul_assoc, ← mul_sub, abs_apply_mul, abs_apply_mul,
    abs_of_nonneg (show (0 : ℚ) ≤ num / den by positivity)]

theorem approximates_zero (negative : Bool) : Approximates (parts (ofFields negative 0)) 0 := by
  obtain ⟨hfinite, hvalue⟩ := value_ofFields (m := 0) (e := -1074) negative (by decide) (by decide) (by decide) (.inr rfl)
  rw [cast_apply, Nat.cast_zero, mul_zero, zero_mul, value] at hvalue
  have happrox := approximates_self hfinite
  rwa [hvalue] at happrox

/-- The double of a natural number that is not too large. -/
theorem approximates_ofInt {n : ℕ} (hn : n < 2 ^ 63) : ∃ x, ofInt? n = some x ∧ Approximates (parts x) n := by
  have hinfinity : infinityBits = 2047 * 2 ^ 52 := rfl
  rcases Nat.eq_zero_or_pos n with rfl | hpos
  · refine ⟨ofFields false 0, rfl, ?_⟩
    rw [Nat.cast_zero]
    exact approximates_zero false
  · have hn1 : (1 : ℚ) ≤ n := by exact_mod_cast hpos
    have hn2 : (n : ℚ) ≤ 2 ^ 63 := by exact_mod_cast hn.le
    have hlow : (2 : ℚ) ^ (-1000 : ℤ) ≤ (n : ℚ) / (1 : ℕ) := by
      rw [Nat.cast_one, div_one]
      exact (zpow_le_one_of_nonpos₀ (by norm_num) (by norm_num)).trans hn1
    have hhigh : (n : ℚ) / (1 : ℕ) ≤ 2 ^ (200 : ℤ) := by
      rw [Nat.cast_one, div_one]
      exact hn2.trans (by norm_num)
    obtain ⟨m, e, hbits, -, hm2, -, he2, -⟩ := nearestBits_spec hpos Nat.one_pos hlow hhigh
    have happrox := approximates_nearest false hpos Nat.one_pos hlow hhigh
    refine ⟨nearest false n 1, ?_, by simpa [signOf, Sign.apply] using happrox⟩
    have h52 : twoTo 52 = 2 ^ 52 := rfl
    rw [ofInt?, Int.natAbs_natCast, if_pos (by rw [hbits, hinfinity, h52]; omega)]
    rw [show decide ((n : ℤ) < 0) = false from decide_eq_false (by omega)]

/-- The double of a decimal with four places. -/
theorem approximates_toFloat (negative : Bool) {units : ℕ} (h : units < 10 ^ 28) :
    Approximates (parts (Decimal.toFloat ⟨negative, units, -4⟩)) ((signOf negative).apply 1 * (units / 10 ^ 4)) := by
  rcases Nat.eq_zero_or_pos units with rfl | hpos
  · have hzero : Decimal.toFloat ⟨negative, 0, -4⟩ = ofFields negative 0 := rfl
    rw [hzero, Nat.cast_zero, zero_div, mul_zero]
    exact approximates_zero negative
  · have hlog : units.log2 < 94 := (Nat.log2_lt hpos.ne').2 (h.trans (by norm_num))
    have hfloat : Decimal.toFloat ⟨negative, units, -4⟩ = nearest negative units (tenTo 4) := by
      rw [Decimal.toFloat, ofDecimal]
      simp only
      rw [if_neg hpos.ne', if_neg (by omega), if_neg (by omega), if_pos (by decide)]
      rfl
    have hten : ((tenTo 4 : ℕ) : ℚ) = 10 ^ 4 := by norm_num [tenTo]
    have h1 : (1 : ℚ) ≤ units := by exact_mod_cast hpos
    have h2 : (units : ℚ) ≤ 10 ^ 28 := by exact_mod_cast h.le
    have hlow : (2 : ℚ) ^ (-1000 : ℤ) ≤ (units : ℚ) / tenTo 4 := by
      rw [hten]
      refine le_trans (zpow_le_zpow_right₀ (by norm_num) (by decide : (-1000 : ℤ) ≤ -20)) ?_
      rw [le_div_iff₀ (by norm_num)]
      exact le_trans (by norm_num) h1
    have hhigh : (units : ℚ) / tenTo 4 ≤ 2 ^ (200 : ℤ) := by
      rw [hten, div_le_iff₀ (by norm_num)]
      exact h2.trans (by norm_num)
    have hquot := approximates_nearest negative hpos (tenTo_pos 4) hlow hhigh
    rw [hfloat]
    rwa [hten] at hquot

end

end Assay.Binary64
