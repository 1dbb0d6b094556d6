import Assay.Proofs.Confidences
import Assay.Proofs.Scores

/-!
# The values of doubles

A finite double is a rational number (`Binary64.value`). Its parts are canonical: the mantissa has 53 bits
unless the exponent is the least one. So doubles compare as their values do, with each other
(`lt_iff_value`) and with integers (`compareInt_eq`), and bits tell the value back (`value_of_bits`).
-/

namespace Assay.Binary64

open Float.Model UnpackedFloat

/-- The number that parts stand for; what is no finite number counts as zero. -/
def valueOf : UnpackedFloat → ℚ
  | .finite s m e _ => s.apply m * 2 ^ e
  | _ => 0

/-- The number that a finite double is. -/
abbrev value (x : Float) : ℚ := valueOf (parts x)

/-- A mantissa and an exponent that a double can have. -/
structure IsCanonical (m : ℕ) (e : ℤ) : Prop where
  mantissa : m < 2 ^ 53
  least : -1074 ≤ e
  greatest : e ≤ 971
  full : 2 ^ 52 ≤ m ∨ e = -1074

section
variable {u v : UnpackedFloat} {x y : Float} {s : Sign} {m n : ℕ} {e k : ℤ} {b : BitVec 64}

/-! ## Bits -/

/-- The mantissa that bits tell. -/
def bitsMantissa (n : ℕ) : ℕ := (if n / 2 ^ 52 % 2 ^ 11 = 0 then 0 else 2 ^ 52) + n % 2 ^ 52

/-- The exponent that bits tell. -/
def bitsExponent (n : ℕ) : ℤ := max 1 (n / 2 ^ 52 % 2 ^ 11 : ℕ) - 1075

theorem isCanonical_bits (h : n / 2 ^ 52 % 2 ^ 11 ≠ 2047) : IsCanonical (bitsMantissa n) (bitsExponent n) := by
  unfold bitsMantissa bitsExponent
  split <;> constructor <;> omega

theorem unpack_eq (h : b.toNat / 2 ^ 52 % 2 ^ 11 ≠ 2047) : unpack Format.binary64 b =
    if hm : bitsMantissa b.toNat = 0 then .zero (Sign.ofBitVec (@unpackSign Format.binary64 b))
    else .finite (Sign.ofBitVec (@unpackSign Format.binary64 b)) (bitsMantissa b.toNat) (bitsExponent b.toNat)
      (Nat.pos_of_ne_zero hm) := by
  have hmantissa := toNat_unpackMantissa b
  have hexponent := toNat_unpackExponent b
  have hbias : (Format.binary64.exponentBias + Format.binary64.mantissaBitsWithoutImplicit : ℤ) = 1075 := rfl
  have hmax : @unpackExponent Format.binary64 b ≠ -1#11 := fun he => h ((unpackExponent_eq_iff b 2047 (by decide)).1 he)
  have hmin := unpackExponent_eq_iff b 0 (by decide)
  have hzero := unpackMantissa_eq_zero_iff b
  rw [UnpackedFloat.unpack]
  simp only [hbias]
  rw [if_neg hmax]
  by_cases he : b.toNat / 2 ^ 52 % 2 ^ 11 = 0
  · have hm : bitsMantissa b.toNat = b.toNat % 2 ^ 52 := by rw [bitsMantissa, if_pos he, Nat.zero_add]
    have hk : bitsExponent b.toNat = -1074 := by rw [bitsExponent, he]; rfl
    rw [if_pos (hmin.2 he)]
    by_cases hfraction : b.toNat % 2 ^ 52 = 0
    · rw [dif_pos (hzero.2 hfraction), dif_pos (hm.trans hfraction)]
    · rw [dif_neg fun hv => hfraction (hzero.1 hv), dif_neg fun hv => hfraction (hm.symm.trans hv)]
      congr 1
      · rw [hm, hmantissa]
      · rw [hk, hexponent, he]
        rfl
  · have hm : bitsMantissa b.toNat = 2 ^ 52 + b.toNat % 2 ^ 52 := by rw [bitsMantissa, if_neg he]
    have hk : bitsExponent b.toNat = (b.toNat / 2 ^ 52 % 2 ^ 11 : ℕ) - 1075 := by rw [bitsExponent]; omega
    rw [if_neg fun hv => he (hmin.1 hv), dif_neg (by omega)]
    congr 1
    · rw [toNat_implicit, hm, hmantissa]
    · rw [hk, hexponent]

theorem isNegative_injective : Function.Injective isNegative := by
  intro s t h
  cases s <;> cases t <;> first | rfl | cases h

/-- Bits of a sign, an exponent and a mantissa, which may carry into the exponent. -/
theorem value_of_bits (hb : b.toNat = (if isNegative s then 2 ^ 63 else 0) + ((e + 1074).toNat * 2 ^ 52 + m))
    (hmost : m ≤ 2 ^ 53) (hleast : -1074 ≤ e) (hgreatest : e ≤ 970) (hfull : 2 ^ 52 ≤ m ∨ e = -1074) :
    (unpack Format.binary64 b).isFinite = true ∧ valueOf (unpack Format.binary64 b) = s.apply m * 2 ^ e := by
  have hfield : b.toNat / 2 ^ 52 % 2 ^ 11 ≠ 2047 := by split at hb <;> omega
  have hsign : Sign.ofBitVec (@unpackSign Format.binary64 b) = s := by
    refine isNegative_injective ((isNegative_unpackSign b).trans ?_)
    cases s with
    | negative =>
      rw [isNegative, if_pos rfl] at hb
      exact beq_iff_eq.2 (by omega)
    | positive =>
      rw [isNegative, if_neg Bool.false_ne_true] at hb
      exact beq_eq_false_iff_ne.2 (by omega)
  -- The mantissa is told as it is, or as half of it if it carries.
  have hvalue : (bitsMantissa b.toNat : ℚ) * 2 ^ bitsExponent b.toNat = m * 2 ^ e := by
    rcases hmost.lt_or_eq with hlt | heq
    · have hm : bitsMantissa b.toNat = m := by unfold bitsMantissa; split at hb <;> split <;> omega
      have he : bitsExponent b.toNat = e := by unfold bitsExponent; split at hb <;> omega
      rw [hm, he]
    · have hm : bitsMantissa b.toNat = 2 ^ 52 := by unfold bitsMantissa; split at hb <;> split <;> omega
      have he : bitsExponent b.toNat = e + 1 := by unfold bitsExponent; split at hb <;> omega
      rw [hm, he, heq, zpow_add_one₀ (by norm_num)]
      push_cast
      ring
  rw [unpack_eq hfield, hsign]
  split
  next hz =>
    rw [hz, Nat.cast_zero, zero_mul] at hvalue
    refine ⟨rfl, ?_⟩
    cases s <;> simp [Sign.apply, valueOf, ← hvalue]
  next =>
    refine ⟨rfl, ?_⟩
    cases s <;> simp [Sign.apply, valueOf, hvalue]

/-- Finite doubles are canonical. -/
theorem isCanonical_parts {hm : 0 < m} (h : parts x = .finite s m e hm) : IsCanonical m e := by
  have hparts : parts x = unpack Format.binary64 x.toModel.toBits.toBitVec := rfl
  generalize x.toModel.toBits.toBitVec = b at hparts
  rw [hparts] at h
  by_cases hfield : b.toNat / 2 ^ 52 % 2 ^ 11 = 2047
  · have hmax : @unpackExponent Format.binary64 b = -1#11 := (unpackExponent_eq_iff b 2047 (by decide)).2 hfield
    rw [UnpackedFloat.unpack, if_pos hmax] at h
    split at h <;> cases h
  · rw [unpack_eq hfield] at h
    split at h
    · cases h
    · obtain ⟨-, rfl, rfl⟩ := UnpackedFloat.finite.inj h
      exact isCanonical_bits hfield

theorem toNat_packComponents (s : Sign) (f : BitVec 11) (w : BitVec 52) :
    (packComponents Format.binary64 s f w).toNat =
      (if isNegative s then 2 ^ 63 else 0) + (f.toNat * 2 ^ 52 + w.toNat) := by
  have hf := f.isLt
  have hw := w.isLt
  rw [packComponents, BitVec.toNat_append, BitVec.toNat_append, ← Nat.shiftLeft_add_eq_or_of_lt hw,
    ← Nat.shiftLeft_add_eq_or_of_lt hf, Nat.shiftLeft_eq, Nat.shiftLeft_eq]
  have hsign : s.toBitVec.toNat = if isNegative s then 1 else 0 := by cases s <;> rfl
  rw [hsign]
  split <;> omega

/-- Packing keeps the value of canonical parts. -/
theorem value_of_pack (h : IsCanonical m e) (he : e ≤ 970) (hm : 0 < m) :
    (unpack Format.binary64 (UnpackedFloat.pack Format.binary64 (.finite s m e hm))).isFinite = true ∧
      valueOf (unpack Format.binary64 (UnpackedFloat.pack Format.binary64 (.finite s m e hm))) = s.apply m * 2 ^ e := by
  obtain ⟨hmost, hleast, -, hfull⟩ := h
  refine value_of_bits ?_ hmost.le hleast he hfull
  have hbias : (e + Format.binary64.exponentBias + Format.binary64.mantissaBitsWithoutImplicit).toNat =
      (e + 1074).toNat + 1 := by
    have hbits : (Format.binary64.exponentBias + Format.binary64.mantissaBitsWithoutImplicit : ℤ) = 1075 := rfl
    rw [add_assoc, hbits]
    omega
  have hnormal : m.log2 + 1 = Format.binary64.mantissaBits ↔ 2 ^ 52 ≤ m := by
    have hbits : Format.binary64.mantissaBits = 53 := rfl
    rw [hbits, ← Nat.le_log2 hm.ne']
    have := (Nat.log2_lt hm.ne').2 hmost
    omega
  rw [UnpackedFloat.pack]
  simp only [hbias, hnormal]
  rw [if_neg (by omega : ¬ 2 ^ 11 ≤ (e + 1074).toNat + 1 + 1)]
  split
  · rw [toNat_packComponents, BitVec.toNat_ofNat, BitVec.toNat_ofNat]
    omega
  · rw [toNat_packComponents, BitVec.toNat_ofNat, BitVec.toNat_ofNat]
    omega

/-! ## Order -/

/-- The order by exponent, then by mantissa, is the order of values. -/
theorem IsCanonical.mul_lt_mul (h : IsCanonical m e) (h' : IsCanonical n k) (hlt : e < k ∨ e = k ∧ m < n) :
    (m : ℚ) * 2 ^ e < n * 2 ^ k := by
  rcases hlt with hlt | ⟨rfl, hlt⟩
  · have hm : (m : ℚ) < 2 ^ 53 := by exact_mod_cast h.mantissa
    have hn : (2 : ℚ) ^ 52 ≤ n := by
      rcases h'.full with hfull | hleast
      · exact_mod_cast hfull
      · have := h.least
        omega
    calc (m : ℚ) * 2 ^ e < 2 ^ 53 * 2 ^ e := by gcongr
      _ = 2 ^ 52 * 2 ^ (e + 1) := by rw [zpow_add_one₀ (by norm_num)]; ring
      _ ≤ 2 ^ 52 * 2 ^ k := by gcongr <;> norm_num; omega
      _ ≤ n * 2 ^ k := by gcongr
  · have hmn : (m : ℚ) < n := by exact_mod_cast hlt
    gcongr

theorem valueOf_neg (u : UnpackedFloat) : valueOf u.neg = -valueOf u := by
  have hpositive : -Sign.positive = .negative := rfl
  have hnegative : -Sign.negative = .positive := rfl
  rcases u with s | _ | _ | ⟨s, m, e, hm⟩ <;> try cases s
  all_goals simp [UnpackedFloat.neg, valueOf, Sign.apply, hpositive, hnegative]

theorem value_neg (hx : (parts x).isFinite = true) : (parts (-x)).isFinite = true ∧ value (-x) = -value x := by
  rw [value, parts_neg (isNaN_of_isFinite hx)]
  refine ⟨?_, valueOf_neg _⟩
  cases hu : parts x <;> rw [hu] at hx <;> first | rfl | cases hx

theorem value_lt_of_level (hx : (parts x).isFinite = true) (hy : (parts y).isFinite = true) (h : level x < level y) :
    value x < value y := by
  have hpos : ∀ {m : ℕ} (e : ℤ), 0 < m → (0 : ℚ) < m * 2 ^ e := fun e hm => by positivity
  rw [level, level] at h
  rw [value, value]
  rcases hu : parts x with s | _ | _ | ⟨s, m, e, hm⟩ <;> rcases hv : parts y with t | _ | _ | ⟨t, n, k, hn⟩
  all_goals rw [hu] at h hx
  all_goals rw [hv] at h hy
  all_goals try cases hx
  all_goals try cases hy
  · exact absurd h (lt_irrefl _)
  · cases t with
    | negative => simp [levelOf, Prod.Lex.toLex_lt_toLex] at h
    | positive => simpa [valueOf, Sign.apply] using hpos k hn
  · cases s with
    | negative => simpa [valueOf, Sign.apply] using hpos e hm
    | positive => simp [levelOf, Prod.Lex.toLex_lt_toLex] at h
  · have hc := isCanonical_parts hu
    have hd := isCanonical_parts hv
    cases s <;> cases t
    · have hlt : k < e ∨ k = e ∧ n < m := by
        simpa [levelOf, Prod.Lex.toLex_lt_toLex, eq_comm] using h
      simpa [valueOf, Sign.apply] using hd.mul_lt_mul hc hlt
    · have := hpos e hm
      have := hpos k hn
      simp only [valueOf, Sign.apply, Int.cast_neg, Int.cast_natCast]
      linarith
    · simp [levelOf, Prod.Lex.toLex_lt_toLex] at h
    · have hlt : e < k ∨ e = k ∧ m < n := by simpa [levelOf, Prod.Lex.toLex_lt_toLex] using h
      simpa [valueOf, Sign.apply] using hc.mul_lt_mul hd hlt

theorem value_eq_of_level (hx : (parts x).isFinite = true) (hy : (parts y).isFinite = true) (h : level x = level y) :
    value x = value y := by
  rw [level, level] at h
  rw [value, value]
  rcases hu : parts x with s | _ | _ | ⟨s, m, e, hm⟩ <;> rcases hv : parts y with t | _ | _ | ⟨t, n, k, hn⟩
  all_goals rw [hu] at h hx
  all_goals rw [hv] at h hy
  all_goals try cases hx
  all_goals try cases hy
  all_goals try cases s
  all_goals try cases t
  all_goals simp [levelOf, valueOf, Sign.apply] at h ⊢
  all_goals rw [h.1, h.2]

/-- **Order.** Finite doubles compare as their values do. -/
theorem lt_iff_value (hx : (parts x).isFinite = true) (hy : (parts y).isFinite = true) : x < y ↔ value x < value y := by
  rw [lt_iff_level (isNaN_of_isFinite hx) (isNaN_of_isFinite hy)]
  refine ⟨value_lt_of_level hx hy, fun h => ?_⟩
  rcases lt_trichotomy (level x) (level y) with hlt | heq | hgt
  · exact hlt
  · exact absurd (value_eq_of_level hx hy heq) h.ne
  · exact absurd (value_lt_of_level hy hx hgt) h.not_gt

/-! ## Integers -/

/-- A double is finite if it is told as a mantissa and an exponent. -/
theorem isFinite_iff : (parts x).isFinite = true ↔ ∃ negative m e, magnitude x = .finite negative m e := by
  rw [magnitude_eq]
  cases parts x with
  | zero s => exact ⟨fun _ => ⟨_, _, _, rfl⟩, fun _ => rfl⟩
  | finite s m e hm => exact ⟨fun _ => ⟨_, _, _, rfl⟩, fun _ => rfl⟩
  | _ => exact ⟨nofun, nofun⟩

theorem cast_twoTo (h : 0 ≤ e) : (twoTo e.toNat : ℚ) = 2 ^ e := cast_pow_toNat 2 h

theorem sign_mul (s : Sign) (n : ℤ) : (if isNegative s then -1 else 1) * n = s.apply n := by
  cases s <;> simp [isNegative, Sign.apply]

/-- A finite double is the ratio that it is given as. -/
theorem exists_ratio (hx : (parts x).isFinite = true) :
    ∃ (a : ℤ) (d : ℕ), ratio? x = some (a, d) ∧ 0 < d ∧ value x = a / d := by
  have hratio : ∀ {s : Sign} {m : ℕ} {e : ℤ}, magnitude x = .finite (isNegative s) m e →
      ∃ (a : ℤ) (d : ℕ), ratio? x = some (a, d) ∧ 0 < d ∧ s.apply m * 2 ^ e = (a / d : ℚ) := by
    intro s m e h
    rw [ratio?, h]
    by_cases he : e < 0
    · refine ⟨_, _, congrArg some (if_pos he), twoTo_pos _, ?_⟩
      rw [cast_twoTo (by omega), zpow_neg, div_inv_eq_mul, sign_mul]
    · refine ⟨_, _, congrArg some (if_neg he), Nat.one_pos, ?_⟩
      rw [Nat.cast_one, div_one, sign_mul, ← cast_twoTo (not_lt.1 he)]
      cases s <;> simp [Sign.apply]
  have hmag := magnitude_eq x
  rw [value]
  cases hu : parts x with
  | zero s =>
    obtain ⟨a, d, h, hd, hvalue⟩ := hratio (s := s) (m := 0) (e := -1074) (by rw [hmag, hu]; rfl)
    refine ⟨a, d, h, hd, hvalue ▸ ?_⟩
    cases s <;> simp [valueOf, Sign.apply]
  | finite s m e hm => exact hratio (by rw [hmag, hu]; rfl)
  | _ => rw [hu] at hx; cases hx

/-- An integer and a finite double compare as their values do. -/
theorem compareInt_eq (n : ℤ) (hx : (parts x).isFinite = true) :
    compareInt n x = some (compare (n : ℚ) (value x)) := by
  obtain ⟨a, d, hratio, hd, hvalue⟩ := exists_ratio hx
  have hd' : (0 : ℚ) < d := by exact_mod_cast hd
  have hcompare : compare (n * d) a = compare (n : ℚ) (value x) := by
    rw [hvalue]
    rcases lt_trichotomy (n * d) a with hlt | heq | hgt
    · have hcast : (n : ℚ) * d < a := by exact_mod_cast hlt
      rw [compare_lt_iff_lt.2 hlt, compare_lt_iff_lt.2 ((lt_div_iff₀ hd').2 hcast)]
    · have hcast : (n : ℚ) * d = a := by exact_mod_cast heq
      rw [compare_eq_iff_eq.2 heq, compare_eq_iff_eq.2 ((eq_div_iff hd'.ne').2 hcast)]
    · have hcast : (a : ℚ) < n * d := by exact_mod_cast hgt
      rw [compare_gt_iff_gt.2 hgt, compare_gt_iff_gt.2 ((div_lt_iff₀ hd').2 hcast)]
  obtain ⟨negative, m, e, hmag⟩ := isFinite_iff.1 hx
  rw [compareInt, hmag, hratio, ← hcompare]
  rfl

end

end Assay.Binary64
