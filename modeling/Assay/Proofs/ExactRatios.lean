import Assay.Proofs.RegressionVerdict

/-!
# Reported ratios are exact

A reported ratio is rounded twice: the quotient of two counts to 28 digits, and that to four places. Still it is the
ratio itself, rounded once (`Score.isNearest_ofRat`). Either the ratio lies in the middle between two values of four
places; then it needs fewer than 28 digits and the first rounding changes nothing. Or it does not; then it is further
from every middle than the first rounding moves it, because its denominator is not too large. So the metrics of any
list of well-formed results show the exact fractions of what the results say (`Metrics.ofResults_exact`), in whatever
order the results are.
-/

namespace Assay

/-! ## Rounding twice -/

section
variable {n a b num den : ℕ} {k : ℤ} {p q : ℚ}

/-- What is nearest to a number is nearest to another one if that is closer to it than to any middle between two whole
numbers. -/
theorem IsNearest.of_near (h : IsNearest n p) (hnear : ∀ k : ℤ, |p - q| < |q - (k + 1 / 2)|) : IsNearest n q := by
  obtain ⟨hlow, hhigh⟩ := abs_le.1 (le_refl |p - q|)
  have habove := hnear n
  have hbelow := hnear (n - 1)
  push_cast at habove hbelow
  refine ⟨?_, ?_, ?_⟩
  · by_contra hlt
    rw [not_le] at hlt
    rw [abs_of_pos (by linarith : 0 < q - (n + 1 / 2))] at habove
    linarith [h.le]
  · by_contra hlt
    rw [not_le] at hlt
    rw [abs_of_neg (by linarith : q - (n - 1 + 1 / 2) < 0)] at hbelow
    linarith [h.ge]
  · rintro (htie | htie)
    · rw [htie, sub_self, abs_zero] at habove
      exact absurd habove (abs_nonneg _).not_gt
    · rw [htie, show (n : ℚ) - 1 / 2 - (n - 1 + 1 / 2) = 0 by ring, abs_zero] at hbelow
      exact absurd hbelow (abs_nonneg _).not_gt

/-- A fraction that is not in the middle between two whole numbers has a distance from it that its denominator
bounds. -/
theorem middle_gap (hb : 0 < b) (hne : (a : ℚ) / b * 10 ^ 4 ≠ k + 1 / 2) :
    1 / (2 * (b : ℚ)) ≤ |(a : ℚ) / b * 10 ^ 4 - (k + 1 / 2)| := by
  have hb' : (0 : ℚ) < b := by exact_mod_cast hb
  let z : ℤ := 2 * (a * 10 ^ 4) - (2 * k + 1) * b
  have hz : (a : ℚ) / b * 10 ^ 4 - (k + 1 / 2) = z / (2 * b) := by
    simp only [z]
    push_cast
    field_simp
    ring
  have hz0 : z ≠ 0 := fun h => hne (by rw [← sub_eq_zero, hz, h, Int.cast_zero, zero_div])
  have hone : (1 : ℚ) ≤ |(z : ℚ)| := by exact_mod_cast Int.one_le_abs hz0
  rw [hz, abs_div, abs_of_pos (by positivity : (0 : ℚ) < 2 * b)]
  gcongr

namespace Decimal

/-- The last of 28 digits of a number of at most one stands at the 27th place or behind it. -/
theorem exponent_le {e : ℤ} (h : (10 : ℚ) ^ (e + 27) ≤ q) (hq : q ≤ 1) : e ≤ -27 := by
  have hpow : (10 : ℚ) ^ (e + 27) ≤ 10 ^ (0 : ℤ) := h.trans hq
  have hexp := (zpow_le_zpow_iff_right₀ (by norm_num : (1 : ℚ) < 10)).1 hpow
  omega

/-- A middle is an even number of units of the last of so many digits. -/
theorem middle_units (k : ℕ) {e : ℤ} (he : e ≤ -27) :
    ∃ m : ℕ, m % 2 = 0 ∧ ((k : ℚ) + 1 / 2) / 10 ^ 4 = m * 10 ^ e := by
  obtain ⟨j, rfl⟩ : ∃ j : ℕ, e = -((j + 6 : ℕ) : ℤ) := ⟨(-e - 6).toNat, by omega⟩
  refine ⟨2 * ((2 * k + 1) * 25 * 10 ^ j), by omega, ?_⟩
  rw [zpow_neg, zpow_natCast]
  push_cast
  field_simp
  ring

/-- The decimal of a ratio of at most one is a middle exactly if the ratio is within half a unit of it. -/
theorem size_quotient_eq_middle_iff {k : ℕ} (hnum : 0 < num) (hle : num ≤ den) :
    (quotient false num den).size = (k + 1 / 2) / 10 ^ 4 ↔
      |(num : ℚ) / den - (k + 1 / 2) / 10 ^ 4| ≤ 10 ^ quotientExponent num den / 2 := by
  have hden : 0 < den := hnum.trans_le hle
  constructor
  · intro hsize
    rw [← hsize, abs_sub_comm]
    exact size_quotient_near hnum hden
  · intro hnear
    have hone : (num : ℚ) / den ≤ 1 := (div_le_one (by exact_mod_cast hden)).2 (by exact_mod_cast hle)
    obtain ⟨m, hm, hmiddle⟩ := middle_units k (exponent_le (quotientExponent_spec hnum hden).1 hone)
    obtain ⟨hdigits, he⟩ := isNearest_quotient false hnum hden
    rw [size, hmiddle]
    rw [hmiddle, abs_sub_comm, abs_scaled_sub] at hnear
    rw [he] at hdigits ⊢
    generalize quotientExponent num den = e at *
    have hpos : (0 : ℚ) < 10 ^ e := by positivity
    have hhalf : |(m : ℚ) - num / den * 10 ^ (-e)| ≤ 1 / 2 := by
      refine le_of_mul_le_mul_right (hnear.trans_eq ?_) hpos
      ring
    rw [abs_sub_comm] at hhalf
    rw [hdigits.eq_of_even hm hhalf]

/-- A ratio of at most one in the middle between two values of four places is written exactly. -/
theorem size_quotient_of_middle (hnum : 0 < num) (hle : num ≤ den) (h : (num : ℚ) / den * 10 ^ 4 = k + 1 / 2) :
    (quotient false num den).size = num / den := by
  have hpos : (0 : ℚ) < num / den * 10 ^ 4 := by
    have hnum' : (0 : ℚ) < num := by exact_mod_cast hnum
    have hden' : (0 : ℚ) < den := by exact_mod_cast hnum.trans_le hle
    positivity
  have hk : 0 ≤ k := by
    have hlt : (-1 : ℚ) < k := by linarith
    have hlt' : -1 < k := by exact_mod_cast hlt
    omega
  lift k to ℕ using hk
  have hmiddle : (num : ℚ) / den = (k + 1 / 2) / 10 ^ 4 := (eq_div_iff (by norm_num)).2 h
  rw [hmiddle]
  refine (size_quotient_eq_middle_iff hnum hle).2 ?_
  rw [hmiddle, sub_self, abs_zero]
  positivity

end Decimal

namespace Score

/-- The score of a fraction is the number of ten-thousandths that is nearest to the fraction itself. -/
theorem isNearest_ofRat (hab : a ≤ b) (hb : b < 2 * 10 ^ 20) :
    IsNearest (ofRat (a / b)).units (a / b * 10 ^ 4) := by
  rcases Nat.eq_zero_or_pos a with rfl | ha
  · have hzero : (ofRat ((0 : ℕ) / b)).units = 0 := by
      rw [Nat.cast_zero, zero_div]
      rfl
    rw [hzero]
    simpa using isNearest_self 0
  have hb0 : 0 < b := ha.trans_le hab
  have ha' : (0 : ℚ) < a := by exact_mod_cast ha
  have hb' : (0 : ℚ) < b := by exact_mod_cast hb0
  have hb20 : (b : ℚ) < 2 * 10 ^ 20 := by exact_mod_cast hb
  have hgap : ∀ k : ℤ, (a : ℚ) / b * 10 ^ 4 ≠ k + 1 / 2 →
      1 / (2 * (b : ℚ)) ≤ |(a : ℚ) / b * 10 ^ 4 - (k + 1 / 2)| :=
    fun k => middle_gap hb0
  have hpos : (0 : ℚ) < a / b := by positivity
  have hone : (a : ℚ) / b ≤ 1 := (div_le_one hb').2 (by exact_mod_cast hab)
  generalize (a : ℚ) / b = q at *
  have hnum : 0 < q.num.natAbs := Int.natAbs_pos.2 (Rat.num_pos.2 hpos).ne'
  have hcast := cast_natAbs_num_div hpos.le
  have hden : (0 : ℚ) < q.den := by exact_mod_cast q.den_pos
  have hnear := Decimal.isNearest_units (Decimal.quotient false q.num.natAbs q.den)
  rw [ofRat, ofRatio]
  by_cases hmid : ∃ k : ℤ, q * 10 ^ 4 = k + 1 / 2
  · obtain ⟨k, hk⟩ := hmid
    have hle : q.num.natAbs ≤ q.den := by
      rw [← hcast, div_le_one hden] at hone
      exact_mod_cast hone
    have hsize := Decimal.size_quotient_of_middle (k := k) hnum hle (by rwa [hcast])
    rw [hsize, hcast] at hnear
    exact hnear
  · have hwithin := Decimal.size_quotient_within hnum q.den_pos
    rw [hcast] at hwithin
    refine hnear.of_near fun k => lt_of_lt_of_le ?_ (hgap k fun h => hmid ⟨k, h⟩)
    generalize (Decimal.quotient false q.num.natAbs q.den).size = x at *
    calc |x * 10 ^ (4 : ℤ) - q * 10 ^ 4| = |x - q| * 10 ^ 4 := by
          rw [show x * 10 ^ (4 : ℤ) - q * 10 ^ 4 = (x - q) * 10 ^ 4 by norm_num; ring, abs_mul]
          norm_num
      _ ≤ 10 ^ (-27 : ℤ) * 10 ^ 4 := by
          gcongr
          exact hwithin.trans (mul_le_of_le_one_left (by positivity) hone)
      _ < 1 / (2 * (2 * 10 ^ 20)) := by norm_num
      _ ≤ 1 / (2 * b) := by gcongr

-- The fraction 0.03125 lies in the middle between two scores, of which the even one is taken.
example : (ofRatio 1 32).units = 312 := rfl

end Score

end

/-! ## The ratios of a tally -/

theorem ratio_eq (n d : ℕ) : ratio n d = (n : ℚ) / d := by
  rw [ratio, Int.cast_natCast, Int.cast_natCast]
  split
  next hd =>
    have hd' : d = 0 := by exact_mod_cast hd
    rw [hd', Nat.cast_zero, div_zero]
  · rfl

namespace Tally

variable (t : Tally)

theorem precision_eq : t.precision = (t.matched : ℚ) / (t.matched + t.spurious : ℕ) := ratio_eq ..

theorem recallRate_eq : t.recallRate = (t.matched : ℚ) / (t.matched + t.missed : ℕ) := ratio_eq ..

/-- The harmonic mean in counts. Precision and recall are both zero if nothing matches. -/
theorem f1_eq : t.f1 = ((2 * t.matched : ℕ) : ℚ) / (2 * t.matched + t.spurious + t.missed : ℕ) := by
  rw [f1, harmonic, precision_eq, recallRate_eq]
  rcases Nat.eq_zero_or_pos t.matched with h | h
  · simp [h]
  · have hm : (0 : ℚ) < t.matched := by exact_mod_cast h
    have hs : (0 : ℚ) ≤ t.spurious := Nat.cast_nonneg _
    have hn : (0 : ℚ) ≤ t.missed := Nat.cast_nonneg _
    push_cast
    rw [if_neg (by positivity)]
    field_simp
    ring

end Tally

/-- A score is a ratio that lies between zero and one, rounded to four places. -/
structure Score.IsRounded (s : Score) (q : ℚ) : Prop where
  nearest : IsNearest s.units (q * 10 ^ 4)
  le_one : s.units ≤ 10000

theorem Score.isRounded_ofRat {a b : ℕ} (hab : a ≤ b) (hb : b < 2 * 10 ^ 20) :
    (Score.ofRat (a / b)).IsRounded (a / b) :=
  ⟨isNearest_ofRat hab hb, units_le (by positivity) (div_le_one_of_le₀ (by exact_mod_cast hab) (Nat.cast_nonneg b))⟩

/-- A block shows the exact ratios of a tally. -/
structure Block.IsExact (b : Block) (t : Tally) : Prop where
  tally : b.tally = t
  precision : b.precision.IsRounded (t.matched / (t.matched + t.spurious : ℕ))
  recallRate : ∀ s ∈ b.recallRate, s.IsRounded (t.matched / (t.matched + t.missed : ℕ))
  f1 : b.f1.IsRounded ((2 * t.matched : ℕ) / (2 * t.matched + t.spurious + t.missed : ℕ))

/-- The block of a tally of not too many results is exact; only without known defects may it leave out the recall. -/
theorem Block.isExact_ofTally {t : Tally} {hasDefects : Bool} (ht : t.total < 10 ^ 20)
    (hdefects : hasDefects = false → t.defects = 0) : (ofTally hasDefects t).IsExact t := by
  have hsum : t.matched + t.spurious + t.missed < 10 ^ 20 := ht
  have hprecision := Score.isRounded_ofRat (Nat.le_add_right t.matched t.spurious) (by omega)
  have hrecall := Score.isRounded_ofRat (Nat.le_add_right t.matched t.missed) (by omega)
  have hf1 := Score.isRounded_ofRat (a := 2 * t.matched) (b := 2 * t.matched + t.spurious + t.missed)
    (by omega) (by omega)
  rw [← t.precision_eq] at hprecision
  rw [← t.recallRate_eq] at hrecall
  rw [← t.f1_eq] at hf1
  cases hasDefects with
  | true =>
    refine ⟨rfl, t.precision_eq ▸ hprecision, fun s hs => ?_, t.f1_eq ▸ hf1⟩
    obtain rfl : Score.ofRat t.recallRate = s := Option.some.inj hs
    exact t.recallRate_eq ▸ hrecall
  | false =>
    have hzero : t.matched = 0 := by
      have := hdefects rfl
      rw [Tally.defects] at this
      omega
    refine ⟨rfl, t.precision_eq ▸ hprecision, fun s hs => (by cases hs), ?_⟩
    rw [hzero, Nat.mul_zero, Nat.cast_zero, zero_div]
    exact ⟨by simpa [ofTally] using isNearest_self 0, Nat.zero_le _⟩

/-! ## The metrics of results -/

namespace Metrics

section
variable {cs cs' : List Contribution} {rs rs' : List MatchResult} {c : Category} {b : Block}

theorem tallyOf_perm (h : cs.Perm cs') (c : Category) : tallyOf cs c = tallyOf cs' c := by
  refine h.foldl_eq' (fun x _ y _ t => ?_) _
  simp only [Tally.add, Tally.mk.injEq]
  omega

/-- Metrics do not depend on the order of what they count. -/
theorem ofContributions_perm (h : cs.Perm cs') : ofContributions cs = ofContributions cs' := by
  have htally : tallyOf cs = tallyOf cs' := funext (tallyOf_perm h)
  have hcount : ∀ p : Contribution → Bool, (cs.filter p).length = (cs'.filter p).length := fun p =>
    (h.filter p).length_eq
  simp only [ofContributions, present, htally, hcount]

theorem ofResults_perm {m : Metrics} (h : rs.Perm rs') (hm : ofResults rs = .ok m) : ofResults rs' = .ok m := by
  obtain ⟨cs, hcs, hm⟩ := bind_eq_ok.1 hm
  obtain ⟨cs', hcs', hperm⟩ := List.perm_comp_forall₂ h.symm (mapM_eq_ok.1 hcs)
  rw [ofResults, mapM_eq_ok.2 hcs', ← pure_eq_ok.1 hm, ofContributions_perm hperm.symm]
  rfl

/-- The categories stand in their order. -/
theorem pairwise_byCategory (cs : List Contribution) :
    ((ofContributions cs).byCategory.map (·.1)).Pairwise fun a b => a.rank < b.rank := by
  have h : (ofContributions cs).byCategory.map (·.1) = present cs := by simp [ofContributions, Function.comp_def]
  rw [h]
  exact List.Pairwise.filter _ (by decide)

theorem eq_of_mem_byCategory (h : (c, b) ∈ (ofContributions cs).byCategory) :
    b = .ofTally (0 < (tallyOf cs c).defects) (tallyOf cs c) := by
  obtain ⟨c', -, he⟩ := List.mem_map.1 h
  obtain ⟨rfl, rfl⟩ := Prod.mk.inj he
  rfl

/-- **Exact ratios.** The metrics of well-formed results list the categories that results are attributed to, in order.
Precision, recall and harmonic mean of each, and of all results together, are the exact fractions rounded to four
places. Where there are no known defects a category has no recall and the mean is zero. The order of the results makes
no difference. -/
theorem ofResults_exact (hlen : rs.length < 10 ^ 20) (hrs : ∀ r ∈ rs, r.IsWellFormed) :
    ∃ m, ofResults rs = .ok m ∧
      (∀ c, c ∈ m.byCategory.map (·.1) ↔ tallyIn c rs ≠ .zero) ∧
      (m.byCategory.map (·.1)).Pairwise (fun a b => a.rank < b.rank) ∧
      (∀ c b, (c, b) ∈ m.byCategory → b.IsExact (tallyIn c rs) ∧
        (b.recallRate = none ↔ (tallyIn c rs).defects = 0) ∧ (b.recallRate = none → b.f1.units = 0)) ∧
      m.overall.IsExact (tallyAll rs) ∧ m.overall.recallRate.isSome = true ∧
      ∀ rs', rs'.Perm rs → ofResults rs' = .ok m := by
  obtain ⟨cs, hcs⟩ := exists_mapM fun r hr => ofResult_of_isWellFormed (hrs r hr)
  obtain ⟨hall, hin⟩ := tallies_of_results hcs
  have hlen' : cs.length < 10 ^ 20 := (mapM_eq_ok.1 hcs).length_eq ▸ hlen
  have hm : ofResults rs = .ok (ofContributions cs) := by rw [ofResults, hcs]; rfl
  refine ⟨_, hm, fun c => ?_, pairwise_byCategory cs, fun c b hb => ?_, ?_, rfl, fun rs' h => ofResults_perm h.symm hm⟩
  · rw [mem_byCategory, ← hin]
    simp [present, Category.mem_all]
  · obtain rfl := eq_of_mem_byCategory hb
    rw [hin]
    have ht : (tallyIn c rs).total < 10 ^ 20 := (hin c ▸ total_tallyOf_le cs c).trans_lt hlen'
    refine ⟨Block.isExact_ofTally ht fun h => ?_, ?_, fun h => ?_⟩
    · simpa using h
    · by_cases h : 0 < (tallyIn c rs).defects
      · simp [Block.ofTally, h, h.ne']
      · simp [Block.ofTally, Nat.eq_zero_of_not_pos h]
    · by_cases hd : 0 < (tallyIn c rs).defects
      · simp [Block.ofTally, hd] at h
      · simp [Block.ofTally, hd]
  · have ht := total_sum_present_le cs
    rw [sum_tallyOf, hall] at ht
    have htally : (ofContributions cs).overall = .ofTally true (tallyAll rs) := by
      rw [← hall, ← sum_tallyOf]
      rfl
    rw [htally]
    exact Block.isExact_ofTally (ht.trans_lt hlen') fun h => by cases h

/-- One of two findings matches. -/
theorem ofResults_exact_twins : ∃ m,
    ofResults [MatchResult.matched Matching.loneFinding Matching.loneDefect 1,
      MatchResult.unmatched Matching.twinFinding] = .ok m ∧
      m.overall.precision.IsRounded (1 / 2) ∧ m.overall.f1.IsRounded (2 / 3) := by
  let rs : List MatchResult := [MatchResult.matched Matching.loneFinding Matching.loneDefect 1,
    MatchResult.unmatched Matching.twinFinding]
  have hrs : ∀ r ∈ rs, r.IsWellFormed := by
    intro r hr
    rcases List.mem_pair.1 hr with rfl | rfl
    · exact ⟨.matched, rfl, fun _ => rfl, fun _ => rfl⟩
    · exact ⟨.falsePositive, rfl, fun h => (by cases h), fun _ => rfl⟩
  obtain ⟨m, hm, -, -, -, hall, -, -⟩ := ofResults_exact (by decide : rs.length < 10 ^ 20) hrs
  have htally : tallyAll rs = ⟨1, 1, 0⟩ := rfl
  rw [htally] at hall
  refine ⟨m, hm, ?_, ?_⟩
  · convert hall.precision using 1
    norm_num
  · convert hall.f1 using 1
    norm_num

end

end Metrics

end Assay
