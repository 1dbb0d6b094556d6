import Mathlib
import Assay.Number.Binary64

/-!
# Doubles by their parts

The logic knows a double by its sign, mantissa and exponent; `magnitude` reads the same from its bits
(`magnitude_eq`). Of arithmetic only this is needed here: numbers that are no infinities give numbers,
an absolute value is not negative, and a comparison that holds is one between numbers.
-/

namespace Assay.Binary64

open Float.Model UnpackedFloat

/-- The parts of a double. -/
abbrev parts (x : Float) : UnpackedFloat := x.toModel.unpack

/-- Whether a sign is that of a negative number. -/
def isNegative : Sign → Bool
  | .negative => true
  | .positive => false

/-- What the parts of a double stand for. -/
def ofParts : UnpackedFloat → Magnitude
  | .notANumber => .undefined
  | .infinity s => .infinite (isNegative s)
  | .zero s => .finite (isNegative s) 0 (-1074)
  | .finite s m e _ => .finite (isNegative s) m e

/-! ## Bits -/

section
variable {b : BitVec 64}

theorem toNat_unpackMantissa (b : BitVec 64) :
    (@unpackMantissa Format.binary64 b).toNat = b.toNat % 2 ^ 52 := by
  simp [unpackMantissa]

theorem toNat_unpackExponent (b : BitVec 64) :
    (@unpackExponent Format.binary64 b).toNat = b.toNat / 2 ^ 52 % 2 ^ 11 := by
  simp [unpackExponent, Nat.shiftRight_eq_div_pow]

theorem toNat_unpackSign (b : BitVec 64) :
    (@unpackSign Format.binary64 b).toNat = b.toNat / 2 ^ 63 := by
  have := b.isLt
  simp [unpackSign, Nat.shiftRight_eq_div_pow]
  omega

theorem isNegative_unpackSign (b : BitVec 64) :
    isNegative (Sign.ofBitVec (@unpackSign Format.binary64 b)) = (b.toNat / 2 ^ 63 == 1) := by
  have h := toNat_unpackSign b
  have hlt : b.toNat / 2 ^ 63 < 2 := by have := b.isLt; omega
  unfold Sign.ofBitVec
  split
  · rename_i h0
    rw [h0] at h
    have h0' : b.toNat / 2 ^ 63 = 0 := by rw [← h]; rfl
    rw [h0']; rfl
  · rename_i h0
    have h1 : b.toNat / 2 ^ 63 ≠ 0 := fun e => h0 (BitVec.eq_of_toNat_eq (by rw [h, e]; rfl))
    have h1' : b.toNat / 2 ^ 63 = 1 := by omega
    rw [h1']; rfl

theorem unpackExponent_eq_iff (b : BitVec 64) (n : ℕ) (hn : n < 2 ^ 11) :
    @unpackExponent Format.binary64 b = BitVec.ofNat 11 n ↔ b.toNat / 2 ^ 52 % 2 ^ 11 = n := by
  rw [← toNat_unpackExponent, ← BitVec.toNat_inj, BitVec.toNat_ofNat, Nat.mod_eq_of_lt hn]

theorem unpackMantissa_eq_zero_iff (b : BitVec 64) :
    @unpackMantissa Format.binary64 b = 0#52 ↔ b.toNat % 2 ^ 52 = 0 := by
  rw [← toNat_unpackMantissa, ← BitVec.toNat_inj]; rfl

theorem toNat_implicit (m : BitVec 52) : (1#1 ++ m).toNat = 2 ^ 52 + m.toNat := by
  rw [BitVec.toNat_append, ← Nat.shiftLeft_add_eq_or_of_lt m.isLt]
  simp [Nat.shiftLeft_eq]

end

/-- **Decoding.** The bits of a double stand for what its parts do. -/
theorem magnitude_eq (x : Float) : magnitude x = ofParts (parts x) := by
  have hbits : x.toBits.toNat = x.toModel.toBits.toBitVec.toNat := rfl
  unfold parts Float.Model.unpack UnpackedFloat.unpack magnitude
  simp only [hbits, twoTo, Nat.pow_eq]
  generalize x.toModel.toBits.toBitVec = b
  have hmax : @unpackExponent Format.binary64 b = -1#11 ↔ b.toNat / 2 ^ 52 % 2 ^ 11 = 2047 :=
    unpackExponent_eq_iff b 2047 (by decide)
  have hmin : @unpackExponent Format.binary64 b = 0#11 ↔ b.toNat / 2 ^ 52 % 2 ^ 11 = 0 :=
    unpackExponent_eq_iff b 0 (by decide)
  have hzero := unpackMantissa_eq_zero_iff b
  have hneg := isNegative_unpackSign b
  have hm := toNat_unpackMantissa b
  have he := toNat_unpackExponent b
  by_cases h1 : b.toNat / 2 ^ 52 % 2 ^ 11 = 2047
  · rw [if_pos (beq_iff_eq.2 h1), if_pos (hmax.2 h1)]
    by_cases h0 : b.toNat % 2 ^ 52 = 0
    · rw [if_pos (beq_iff_eq.2 h0), if_pos (hzero.2 h0), ofParts, hneg]
    · rw [if_neg (by simpa using h0), if_neg fun e => h0 (hzero.1 e), ofParts]
  · rw [if_neg (by simpa using h1), if_neg fun e => h1 (hmax.1 e)]
    by_cases h2 : b.toNat / 2 ^ 52 % 2 ^ 11 = 0
    · rw [if_pos (beq_iff_eq.2 h2), if_pos (hmin.2 h2)]
      by_cases h0 : b.toNat % 2 ^ 52 = 0
      · rw [dif_pos (hzero.2 h0), ofParts, hneg, h0]
      · rw [dif_neg fun e => h0 (hzero.1 e), ofParts, hneg, hm, he, h2]; rfl
    · rw [if_neg (by simpa using h2), if_neg fun e => h2 (hmin.1 e), ofParts, hneg, he, toNat_implicit, hm]; rfl

/-! ## Packing -/

/-- Whether parts are those of a negative number. -/
def isMinus : UnpackedFloat → Bool
  | .notANumber => false
  | .infinity s => isNegative s
  | .zero s => isNegative s
  | .finite s _ _ _ => isNegative s

theorem unpackSign_packComponents {S : Format} (s : Sign) (e : BitVec S.exponentBits)
    (m : BitVec S.mantissaBitsWithoutImplicit) : Sign.ofBitVec (unpackSign (packComponents S s e m)) = s := by
  have h : unpackSign (packComponents S s e m) = s.toBitVec := by
    refine BitVec.eq_of_getLsbD_eq fun i hi => ?_
    obtain rfl : i = 0 := by omega
    simp [unpackSign, packComponents, BitVec.getLsbD_append, BitVec.getElem_append]
  rw [h]
  cases s <;> rfl

theorem unpack_packedInfinity (s : Sign) :
    unpack Format.binary64 (packedInfinity Format.binary64 s) = .infinity s := by
  simp [UnpackedFloat.unpack, packedInfinity]

theorem unpack_packedNaN : unpack Format.binary64 (packedNaN Format.binary64) = .notANumber := by
  simp [UnpackedFloat.unpack, packedNaN]

/-- Unless the exponent is the greatest one, components are those of a finite number of their sign. -/
theorem unpack_packComponents (s : Sign) {e : BitVec 11} (m : BitVec 52) (he : e ≠ -1#11) :
    (unpack Format.binary64 (packComponents Format.binary64 s e m)).isFinite = true ∧
      isMinus (unpack Format.binary64 (packComponents Format.binary64 s e m)) = isNegative s := by
  unfold UnpackedFloat.unpack
  simp only [unpackExponent_packComponents, unpackMantissa_packComponents, unpackSign_packComponents]
  rw [if_neg he]
  split
  · split <;> exact ⟨rfl, rfl⟩
  · exact ⟨rfl, rfl⟩

theorem isNaN_of_isFinite {u : UnpackedFloat} (h : u.isFinite = true) : u.isNaN = false := by
  cases u <;> first | rfl | cases h

/-- Packing makes a finite number infinite if its exponent is too great, and keeps its sign. -/
theorem unpack_pack_finite (s : Sign) {m : ℕ} {e : ℤ} (h : 0 < m) :
    unpack Format.binary64 (UnpackedFloat.pack Format.binary64 (.finite s m e h)) = .infinity s ∧ 971 < e ∨
      (unpack Format.binary64 (UnpackedFloat.pack Format.binary64 (.finite s m e h))).isFinite = true ∧
        isMinus (unpack Format.binary64 (UnpackedFloat.pack Format.binary64 (.finite s m e h))) = isNegative s := by
  unfold UnpackedFloat.pack
  simp only
  split
  · rename_i hover
    refine Or.inl ⟨unpack_packedInfinity s, ?_⟩
    have hb : Format.binary64.exponentBias = 1023 := rfl
    rw [hb] at hover
    omega
  · rename_i hfits
    refine Or.inr ?_
    split
    · refine unpack_packComponents s _ fun he => ?_
      have := congrArg BitVec.toNat he
      rw [BitVec.toNat_ofNat, Nat.mod_eq_of_lt (by omega)] at this
      simp at this
      omega
    · exact unpack_packComponents s _ (by decide)

/-- Packing keeps the sign and makes no number undefined. -/
theorem unpack_pack (u : UnpackedFloat) :
    (unpack Format.binary64 (UnpackedFloat.pack Format.binary64 u)).isNaN = u.isNaN ∧
      isMinus (unpack Format.binary64 (UnpackedFloat.pack Format.binary64 u)) = isMinus u := by
  cases u with
  | notANumber => rw [UnpackedFloat.pack, unpack_packedNaN]; exact ⟨rfl, rfl⟩
  | infinity s => rw [UnpackedFloat.pack, unpack_packedInfinity]; exact ⟨rfl, rfl⟩
  | zero s =>
    obtain ⟨h1, h2⟩ := unpack_packComponents s (e := 0#11) 0#52 (by decide)
    exact ⟨isNaN_of_isFinite h1, h2⟩
  | finite s m e h =>
    rcases unpack_pack_finite s (e := e) h with ⟨he, -⟩ | ⟨h1, h2⟩
    · rw [he]; exact ⟨rfl, rfl⟩
    · exact ⟨isNaN_of_isFinite h1, h2⟩

/-! ## Finite numbers -/

theorem isFinite_unpack_pack {u : UnpackedFloat} (hu : u.isFinite = true)
    (he : ∀ s m e h, u = .finite s m e h → e ≤ 971) :
    (unpack Format.binary64 (UnpackedFloat.pack Format.binary64 u)).isFinite = true := by
  cases u with
  | notANumber => cases hu
  | infinity s => cases hu
  | zero s => exact (unpack_packComponents s (e := 0#11) 0#52 (by decide)).1
  | finite s m e h =>
    rcases unpack_pack_finite s (e := e) h with ⟨-, hlt⟩ | ⟨hf, -⟩
    · have := he s m e h rfl
      omega
    · exact hf

/-- Unless all exponent bits are set, the parts are those of a finite number in range. -/
theorem isFinite_unpack {b : BitVec 64} (h : b.toNat / 2 ^ 52 % 2 ^ 11 ≠ 2047) :
    (unpack Format.binary64 b).isFinite = true ∧
      ∀ s m e h, unpack Format.binary64 b = .finite s m e h → e ≤ 971 := by
  have hne : @unpackExponent Format.binary64 b ≠ -1#11 := fun e =>
    h ((unpackExponent_eq_iff b 2047 (by decide)).1 e)
  have hexp := toNat_unpackExponent b
  have hbias : Format.binary64.exponentBias = 1023 := rfl
  have hbits : Format.binary64.mantissaBitsWithoutImplicit = 52 := rfl
  rw [UnpackedFloat.unpack, if_neg hne, hexp, hbias]
  split
  · rename_i h0
    rw [h0] at hexp
    split
    · exact ⟨rfl, nofun⟩
    · refine ⟨rfl, fun s m e h he => ?_⟩
      obtain ⟨-, -, rfl⟩ := UnpackedFloat.finite.inj he
      rw [← hexp]
      simp
  · refine ⟨rfl, fun s m e h he => ?_⟩
    obtain ⟨-, -, rfl⟩ := UnpackedFloat.finite.inj he
    omega

/-- A double is finite if its exponent bits are not all set. -/
theorem isFinite_ofBits {n : ℕ} (hn : n < 2 ^ 64) (he : n / 2 ^ 52 % 2 ^ 11 ≠ 2047) :
    (parts (Float.ofBits (UInt64.ofNat n))).isFinite = true := by
  have hb : (UInt64.ofNat n).toBitVec.toNat = n := by simp; omega
  obtain ⟨hf, hle⟩ := isFinite_unpack (b := (UInt64.ofNat n).toBitVec) (by rwa [hb])
  exact isFinite_unpack_pack hf hle

/-- Bits below those of infinity are those of a finite double. -/
theorem isFinite_ofFields {n : ℕ} (negative : Bool) (h : n < infinityBits) :
    (parts (ofFields negative n)).isFinite = true := by
  have hi : infinityBits = 2047 * 2 ^ 52 := by simp [infinityBits, twoTo]
  have h63 : twoTo 63 = 2 ^ 63 := rfl
  rw [hi] at h
  rw [ofFields, h63]
  refine isFinite_ofBits ?_ ?_ <;> split <;> omega

/-- The double of an integer is finite. -/
theorem isFinite_ofInt {n : ℤ} {x : Float} (h : ofInt? n = some x) : (parts x).isFinite = true := by
  unfold ofInt? at h
  split at h
  · rename_i hlt
    obtain rfl := Option.some.inj h
    exact isFinite_ofFields _ hlt
  · cases h

theorem isNaN_ofFields {n : ℕ} (negative : Bool) (h : n ≤ infinityBits) :
    (parts (ofFields negative n)).isNaN = false := by
  rcases Nat.lt_or_eq_of_le h with h | rfl
  · exact isNaN_of_isFinite (isFinite_ofFields negative h)
  · cases negative <;> decide

theorem nearestBits_le (num den : ℕ) : nearestBits num den ≤ infinityBits := by
  unfold nearestBits
  split
  · exact Nat.zero_le _
  · exact Nat.min_le_right ..

/-- Digits and an exponent are a number, be it infinite. -/
theorem isNaN_ofDecimal (negative : Bool) (digits : ℕ) (e : ℤ) :
    (parts (ofDecimal negative digits e)).isNaN = false := by
  have zero : (parts (ofFields negative 0)).isNaN = false := isNaN_ofFields negative (Nat.zero_le _)
  have infinite : (parts (ofFields negative infinityBits)).isNaN = false := isNaN_ofFields negative (Nat.le_refl _)
  have near (num den : ℕ) : (parts (nearest negative num den)).isNaN = false :=
    isNaN_ofFields negative (nearestBits_le num den)
  rw [ofDecimal]
  by_cases h0 : digits = 0
  · simpa [h0] using zero
  by_cases hbig : 320 < (digits.log2 : ℤ) * 30103 / 100000 + e
  · rw [if_neg h0, if_pos hbig]
    exact infinite
  by_cases hsmall : (digits.log2 : ℤ) * 30103 / 100000 + e < -400
  · rw [if_neg h0, if_neg hbig, if_pos hsmall]
    exact zero
  rw [if_neg h0, if_neg hbig, if_neg hsmall]
  split <;> exact near ..

theorem isNaN_roundWithAccuracy (s : Sign) (m : ℕ) (e : ℤ) (a : Accuracy) :
    (roundWithAccuracy Format.binary64 s m e a).isNaN = false := by
  unfold roundWithAccuracy
  simp only
  split <;> rfl

theorem isNaN_normalize (m : ℤ) (e : ℤ) (s : Sign) :
    (UnpackedFloat.normalize Format.binary64 m e s).isNaN = false := by
  unfold UnpackedFloat.normalize
  split
  · exact isNaN_roundWithAccuracy ..
  · rfl
  · exact isNaN_roundWithAccuracy ..

theorem isNaN_subParts : ∀ {u v : UnpackedFloat}, u.isFinite = true → v.isNaN = false →
    (UnpackedFloat.sub Format.binary64 u v).isNaN = false
  | .zero _, .zero _, _, _ => by rw [UnpackedFloat.sub]; split <;> rfl
  | .zero _, .infinity _, _, _ => rfl
  | .zero _, .finite .., _, _ => rfl
  | .finite .., .zero _, _, _ => rfl
  | .finite .., .infinity _, _, _ => rfl
  | .finite .., .finite .., _, _ => isNaN_normalize ..

/-- A finite number less another number is a number. -/
theorem isNaN_sub {x y : Float} (hx : (parts x).isFinite = true) (hy : (parts y).isNaN = false) :
    (parts (x - y)).isNaN = false :=
  (unpack_pack _).1.trans (isNaN_subParts hx hy)

/-- Half a finite number is a number. -/
theorem isNaN_half {x : Float} (hx : (parts x).isFinite = true) : (parts (x / 2)).isNaN = false := by
  have two : (match parts 2 with | .finite .. => true | _ => false) = true := by decide
  refine (unpack_pack (UnpackedFloat.div Format.binary64 (parts x) (parts 2))).1.trans ?_
  cases h2 : parts 2 with
  | finite =>
    cases hx' : parts x with
    | zero => rfl
    | finite => exact isNaN_roundWithAccuracy ..
    | _ => rw [hx'] at hx; cases hx
  | _ => rw [h2] at two; cases two

/-- An absolute value is not negative. -/
theorem isMinus_abs (x : Float) : (parts x.abs).isNaN = (parts x).isNaN ∧ isMinus (parts x.abs) = false := by
  refine ⟨(unpack_pack (parts x).abs).1.trans ?_, (unpack_pack (parts x).abs).2.trans ?_⟩
  · cases parts x <;> rfl
  · cases parts x <;> rfl

/-! ## Comparisons -/

theorem lt_iff {x y : Float} : x < y ↔ (parts x).compare (parts y) = some .lt := by
  have h : (x < y) = (decide (UnpackedFloat.lt (parts x) (parts y) = true) = true) := rfl
  simp [h, UnpackedFloat.lt]

theorem le_iff {x y : Float} : x ≤ y ↔ ∃ o, (parts x).compare (parts y) = some o ∧ o.isLE = true := by
  have h : (x ≤ y) = (decide (UnpackedFloat.le (parts x) (parts y) = true) = true) := rfl
  simp [h, UnpackedFloat.le, Option.any_eq_true]

theorem parts_zero : parts 0 = .zero .positive := by
  have h : (match parts 0 with | .zero .positive => true | _ => false) = true := by decide
  split at h
  · assumption
  · cases h

/-- What is greater than something is a number. -/
theorem isNaN_of_lt {x y : Float} (h : x < y) : (parts y).isNaN = false := by
  rw [lt_iff] at h
  cases hy : parts y with
  | notANumber => rw [hy] at h; cases hx : parts x <;> rw [hx] at h <;> cases h
  | _ => rfl

/-- What is less than something is a number. -/
theorem isNaN_of_lt_left {x y : Float} (h : x < y) : (parts x).isNaN = false := by
  rw [lt_iff] at h
  cases hx : parts x with
  | notANumber => rw [hx] at h; cases h
  | _ => rfl

/-- What is at least zero is a number. -/
theorem isNaN_of_nonneg {x : Float} (h : 0 ≤ x) : (parts x).isNaN = false := by
  obtain ⟨o, ho, -⟩ := le_iff.1 h
  cases hx : parts x with
  | notANumber => rw [hx, parts_zero] at ho; cases ho
  | _ => rfl

/-- A number that is not at most zero is greater. -/
theorem pos_of_not_le {x : Float} (hx : (parts x).isNaN = false) (h : ¬ x ≤ 0) : 0 < x := by
  rw [le_iff, parts_zero] at h
  rw [lt_iff, parts_zero]
  cases hu : parts x with
  | notANumber => rw [hu] at hx; cases hx
  | infinity s =>
    cases s with
    | positive => rfl
    | negative => exact absurd ⟨_, by rw [hu]; rfl, rfl⟩ h
  | zero s => exact absurd ⟨_, by rw [hu]; rfl, rfl⟩ h
  | finite s m e hm =>
    cases s with
    | positive => rfl
    | negative => exact absurd ⟨_, by rw [hu]; rfl, rfl⟩ h

/-- A finite double is a ratio with a positive denominator. -/
theorem exists_ratio_of_finite {x : Float} {negative : Bool} {m : ℕ} {e : ℤ}
    (h : magnitude x = .finite negative m e) : ∃ a k, ratio? x = some (a, k) ∧ 0 < k := by
  rw [ratio?, h]
  by_cases he : e < 0
  · exact ⟨_, _, congrArg some (if_pos he), twoTo_pos _⟩
  · exact ⟨_, _, congrArg some (if_neg he), Nat.one_pos⟩

theorem ofParts_ne_undefined {u : UnpackedFloat} (h : u.isNaN = false) : ofParts u ≠ .undefined := by
  cases u with
  | notANumber => cases h
  | _ => exact nofun

theorem isMinus_of_ofParts {u : UnpackedFloat} {negative : Bool} (h : ofParts u = .infinite negative) :
    isMinus u = negative := by
  cases u with
  | infinity s => exact Magnitude.infinite.inj h
  | _ => cases h

/-- A number that is not negative and does not exceed an integer is a ratio of at most that integer. -/
theorem exists_ratio_le {n : ℤ} {x : Float} (hx : (parts x).isNaN = false) (hm : isMinus (parts x) = false)
    (h : compareInt n x ≠ some .lt) : ∃ a k, ratio? x = some (a, k) ∧ 0 < k ∧ a ≤ n * k := by
  unfold compareInt at h
  cases hu : magnitude x with
  | undefined => exact absurd ((magnitude_eq x).symm.trans hu) (ofParts_ne_undefined hx)
  | infinite negative =>
    rw [hu] at h
    rw [← isMinus_of_ofParts ((magnitude_eq x).symm.trans hu), hm] at h
    exact absurd rfl h
  | finite negative m e =>
    obtain ⟨a, k, hr, hk⟩ := exists_ratio_of_finite hu
    rw [hu, hr] at h
    refine ⟨a, k, hr, hk, not_lt.1 fun hlt => h ?_⟩
    exact congrArg some (compare_lt_iff_lt.2 hlt)

end Assay.Binary64
