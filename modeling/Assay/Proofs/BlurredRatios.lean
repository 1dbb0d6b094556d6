import Assay.Proofs.ExactRatios

/-!
# Ratios beside a middle

A ratio is rounded twice, to 28 digits and then to four places. The first rounding may reach the middle between two
scores from a ratio that lies beside it (`IsBlurred`), and the second one then takes the even score, on whatever side
of the middle the ratio was (`Score.units_of_isBlurred`). This is the only way in which the two roundings differ from
one: a ratio that 28 digits tell from every middle has the nearest score (`Score.isNearest_of_not_blurred`), since no
rounding to 28 digits passes a middle. So a score is the ratio rounded once, unless the ratio is blurred and lies on the
side of the odd score (`Score.isNearest_ofRat_iff`).
-/

namespace Assay

/-- A number that 28 digits do not tell from the middle between the scores `k` and `k + 1`, though it is not that. -/
structure IsBlurred (q : ℚ) (k : ℕ) : Prop where
  ne : q * 10 ^ 4 ≠ k + 1 / 2
  near : ∃ e : ℤ, (10 : ℚ) ^ (e + 27) ≤ q ∧ q < 10 ^ (e + 28) ∧ |q - (k + 1 / 2) / 10 ^ 4| ≤ 10 ^ e / 2

/-- Without being told from a middle a ratio is close to it. -/
theorem IsBlurred.within {q : ℚ} {k : ℕ} (h : IsBlurred q k) (hq1 : q ≤ 1) : |q * 10 ^ 4 - (k + 1 / 2)| ≤ 1 / 2 := by
  obtain ⟨e, hlow, -, hnear⟩ := h.near
  have hunit : (10 : ℚ) ^ e ≤ 10 ^ (-27 : ℤ) := zpow_le_zpow_right₀ (by norm_num) (Decimal.exponent_le hlow hq1)
  have hsplit : q * 10 ^ 4 - (k + 1 / 2) = (q - (k + 1 / 2) / 10 ^ 4) * 10 ^ 4 := by ring
  calc |q * 10 ^ 4 - (k + 1 / 2)| = |q - (k + 1 / 2) / 10 ^ 4| * 10 ^ 4 := by
        rw [hsplit, abs_mul, abs_of_pos (by norm_num : (0 : ℚ) < 10 ^ 4)]
    _ ≤ 10 ^ (-27 : ℤ) / 2 * 10 ^ 4 := by
        gcongr
        exact hnear.trans (by gcongr)
    _ ≤ 1 / 2 := by norm_num

namespace Score

/-- The number that a ratio is written as before it is cut to four places. -/
def written (q : ℚ) : ℚ := (Decimal.quotient false q.num.natAbs q.den).size

section
variable {p q : ℚ} {k num den : ℕ}

theorem natAbs_num_pos (hq : 0 < q) : 0 < q.num.natAbs := Int.natAbs_pos.2 (Rat.num_pos.2 hq).ne'

theorem natAbs_num_le (hq : 0 ≤ q) (hq1 : q ≤ 1) : q.num.natAbs ≤ q.den := by
  have hden : (0 : ℚ) < q.den := by exact_mod_cast q.den_pos
  rw [← cast_natAbs_num_div hq, div_le_one hden] at hq1
  exact_mod_cast hq1

theorem isNearest_written (q : ℚ) : IsNearest (ofRat q).units (written q * 10 ^ 4) := Decimal.isNearest_units _

theorem written_mono (hp : 0 < p) (h : p ≤ q) : written p ≤ written q := by
  refine Decimal.size_quotient_mono (natAbs_num_pos hp) p.den_pos (natAbs_num_pos (hp.trans_le h)) q.den_pos ?_
  rwa [cast_natAbs_num_div hp.le, cast_natAbs_num_div (hp.le.trans h)]

/-- A ratio is written as a middle exactly if it is that or blurred. -/
theorem written_eq_middle_iff (hq : 0 < q) (hq1 : q ≤ 1) :
    written q = (k + 1 / 2) / 10 ^ 4 ↔ q * 10 ^ 4 = k + 1 / 2 ∨ IsBlurred q k := by
  have hnum := natAbs_num_pos hq
  have hmiddle := Decimal.size_quotient_eq_middle_iff (k := k) hnum (natAbs_num_le hq.le hq1)
  obtain ⟨hlow, hhigh⟩ := Decimal.quotientExponent_spec hnum q.den_pos
  rw [cast_natAbs_num_div hq.le] at hmiddle hlow hhigh
  rw [written, hmiddle]
  generalize Decimal.quotientExponent q.num.natAbs q.den = e at *
  constructor
  · intro hnear
    by_cases heq : q * 10 ^ 4 = k + 1 / 2
    · exact .inl heq
    · exact .inr ⟨heq, e, hlow, hhigh, hnear⟩
  · rintro (heq | ⟨-, e', hlow', hhigh', hnear⟩)
    · rw [← heq, mul_div_cancel_right₀ _ (by norm_num), sub_self, abs_zero]
      positivity
    · -- A ratio has one leading digit.
      have hten : (1 : ℚ) < 10 := by norm_num
      have hle := (zpow_lt_zpow_iff_right₀ hten).1 (hlow.trans_lt hhigh')
      have hge := (zpow_lt_zpow_iff_right₀ hten).1 (hlow'.trans_lt hhigh)
      rwa [show e = e' by omega]

/-- A blurred ratio has the even score, on whatever side of the middle it is. -/
theorem units_of_isBlurred (hq1 : q ≤ 1) (h : IsBlurred q k) : (ofRat q).units = k + k % 2 := by
  obtain ⟨e, hlow, -⟩ := h.near
  have hq : 0 < q := lt_of_lt_of_le (by positivity) hlow
  have hnear := isNearest_written q
  rw [(written_eq_middle_iff hq hq1).2 (.inr h), div_mul_cancel₀ _ (by norm_num)] at hnear
  refine hnear.eq_of_even (by omega) (abs_le.2 ?_)
  rcases Nat.mod_two_eq_zero_or_one k with hk | hk
  · rw [hk]
    constructor <;> push_cast <;> linarith
  · rw [hk]
    constructor <;> push_cast <;> linarith

theorem written_middle (hk : (k : ℚ) + 1 / 2 ≤ 10 ^ 4) : written ((k + 1 / 2) / 10 ^ 4) = (k + 1 / 2) / 10 ^ 4 :=
  (written_eq_middle_iff (by positivity) (div_le_one_of_le₀ hk (by positivity))).2
    (.inl (div_mul_cancel₀ _ (by norm_num)))

/-- A ratio below a middle is written as a number below it, unless it is blurred. -/
theorem written_lt_middle (hq : 0 < q) (hq1 : q ≤ 1) (hk : (k : ℚ) + 1 / 2 ≤ 10 ^ 4) (h : ¬ IsBlurred q k)
    (hlt : q * 10 ^ 4 < k + 1 / 2) : written q * 10 ^ 4 < k + 1 / 2 := by
  have hmono := written_mono hq ((lt_div_iff₀ (by norm_num)).2 hlt).le
  rw [written_middle hk] at hmono
  rw [← lt_div_iff₀ (by norm_num)]
  refine lt_of_le_of_ne hmono fun heq => ?_
  rcases (written_eq_middle_iff hq hq1).1 heq with hmiddle | hblurred
  · exact hlt.ne hmiddle
  · exact h hblurred

/-- A ratio above a middle is written as a number above it, unless it is blurred. -/
theorem middle_lt_written (hq1 : q ≤ 1) (h : ¬ IsBlurred q k) (hlt : (k : ℚ) + 1 / 2 < q * 10 ^ 4) :
    (k : ℚ) + 1 / 2 < written q * 10 ^ 4 := by
  have hbelow := (div_lt_iff₀ (by norm_num)).2 hlt
  have hmono := written_mono (by positivity) hbelow.le
  rw [written_middle (by linarith)] at hmono
  rw [← div_lt_iff₀ (by norm_num)]
  refine lt_of_le_of_ne hmono fun heq => ?_
  rcases (written_eq_middle_iff (lt_of_le_of_lt (by positivity) hbelow) hq1).1 heq.symm with hmiddle | hblurred
  · exact hlt.ne hmiddle.symm
  · exact h hblurred

/-- A ratio that is not blurred has the nearest score: in writing it no middle is passed. -/
theorem isNearest_of_not_blurred (hq : 0 ≤ q) (hq1 : q ≤ 1) (h : ∀ k, ¬ IsBlurred q k) :
    IsNearest (ofRat q).units (q * 10 ^ 4) := by
  rcases hq.eq_or_lt with rfl | hpos
  · rw [zero_mul, show (ofRat 0).units = 0 from rfl]
    simpa using isNearest_self 0
  have hnear := isNearest_written q
  have hmax := units_le hq hq1
  have htie : ∀ k : ℕ, q * 10 ^ 4 = k + 1 / 2 → written q * 10 ^ 4 = k + 1 / 2 := fun k hk =>
    (eq_div_iff (by norm_num)).1 ((written_eq_middle_iff hpos hq1).2 (.inl hk))
  generalize (ofRat q).units = u at *
  have hle : q * 10 ^ 4 ≤ u + 1 / 2 := not_lt.1 fun hlt => (middle_lt_written hq1 (h u) hlt).not_ge hnear.le
  -- The middle below a score is that above the score before, which only zero does not have.
  cases u with
  | zero =>
    have hpos' : 0 < q * 10 ^ 4 := by positivity
    exact ⟨hle, by push_cast; linarith, fun _ => rfl⟩
  | succ n =>
    have hn : ((n + 1 : ℕ) : ℚ) - 1 / 2 = n + 1 / 2 := by push_cast; ring
    have hmax' : (n : ℚ) + 1 ≤ 10000 := by exact_mod_cast hmax
    refine ⟨hle, not_lt.1 fun hlt => ?_, ?_⟩
    · have hge := hnear.ge
      rw [hn] at hlt hge
      exact (written_lt_middle hpos hq1 (by linarith) (h n) hlt).not_ge hge
    · rintro (habove | hbelow)
      · exact hnear.even (.inl (htie _ habove))
      · rw [hn] at hbelow
        exact hnear.even (.inr (by rw [hn]; exact htie n hbelow))

/-- The even score is the nearest one exactly on its own side of the middle. -/
theorem isNearest_even_iff (hq1 : q ≤ 1) (h : IsBlurred q k) :
    IsNearest (k + k % 2) (q * 10 ^ 4) ↔ ¬ (k % 2 = 0 ↔ (k : ℚ) + 1 / 2 < q * 10 ^ 4) := by
  obtain ⟨hlow, hhigh⟩ := abs_le.1 (h.within hq1)
  have hne := h.ne
  generalize q * 10 ^ 4 = x at *
  rcases Nat.mod_two_eq_zero_or_one k with hk | hk
  · rw [iff_true_left hk, not_lt, hk, Nat.add_zero]
    exact ⟨fun hn => hn.le, fun hx => ⟨hx, by linarith, fun _ => hk⟩⟩
  · have hodd : ¬ k % 2 = 0 := by omega
    rw [iff_false_left hodd, not_not, hk]
    constructor
    · intro hn
      have hge := hn.ge
      push_cast at hge
      exact lt_of_le_of_ne (by linarith) hne.symm
    · intro hx
      exact ⟨by push_cast; linarith, by push_cast; linarith, fun _ => by omega⟩

/-- **Rounding twice.** The score of a fraction of at most one, however large its denominator, is the number of
ten-thousandths nearest to the fraction, ties going to the even one, unless the fraction is blurred and lies on the side
of the odd one. A blurred fraction has the even score. -/
theorem isNearest_ofRat_iff (hle : num ≤ den) (hden : 0 < den) :
    (IsNearest (ofRat (num / den)).units (num / den * 10 ^ 4) ↔
      ¬ ∃ k : ℕ, IsBlurred (num / den) k ∧ (k % 2 = 0 ↔ (k : ℚ) + 1 / 2 < num / den * 10 ^ 4)) ∧
    ∀ k, IsBlurred (num / den) k → (ofRat (num / den)).units = k + k % 2 := by
  have hq : (0 : ℚ) ≤ num / den := by positivity
  have hq1 : (num : ℚ) / den ≤ 1 := (div_le_one (by exact_mod_cast hden)).2 (by exact_mod_cast hle)
  generalize (num : ℚ) / den = q at *
  refine ⟨⟨?_, ?_⟩, fun k => units_of_isBlurred hq1⟩
  · rintro hnear ⟨k, hk, hside⟩
    rw [units_of_isBlurred hq1 hk] at hnear
    exact (isNearest_even_iff hq1 hk).1 hnear hside
  · intro hside
    by_cases hblurred : ∃ k, IsBlurred q k
    · obtain ⟨k, hk⟩ := hblurred
      rw [units_of_isBlurred hq1 hk]
      exact (isNearest_even_iff hq1 hk).2 fun hodd => hside ⟨k, hk, hodd⟩
    · exact isNearest_of_not_blurred hq hq1 fun k hk => hblurred ⟨k, hk⟩

/-- A fraction just above the middle between zero and one is blurred: its score is zero. -/
theorem isNearest_ofRat_iff_above : 5 * 10 ^ 28 + 1 ≤ 10 ^ 33 ∧ 0 < 10 ^ 33 ∧
    IsBlurred ((5 * 10 ^ 28 + 1 : ℕ) / (10 ^ 33 : ℕ)) 0 ∧
    (ofRat ((5 * 10 ^ 28 + 1 : ℕ) / (10 ^ 33 : ℕ))).units = 0 := by
  have hle : 5 * 10 ^ 28 + 1 ≤ 10 ^ 33 := by norm_num
  have hblurred : IsBlurred ((5 * 10 ^ 28 + 1 : ℕ) / (10 ^ 33 : ℕ)) 0 := by
    refine ⟨by norm_num, -32, by norm_num, by norm_num, ?_⟩
    rw [abs_le]
    constructor <;> norm_num
  exact ⟨hle, by norm_num, hblurred, (isNearest_ofRat_iff hle (by norm_num)).2 0 hblurred⟩

/-- A fraction just above the middle between zero and one has the score zero, which is not the nearest one. -/
theorem ofRat_not_nearest : (ofRat ((5 * 10 ^ 28 + 1 : ℕ) / (10 ^ 33 : ℕ))).units = 0 ∧
    ¬ IsNearest 0 ((5 * 10 ^ 28 + 1 : ℕ) / (10 ^ 33 : ℕ) * 10 ^ 4) := by
  refine ⟨by decide +kernel, fun h => ?_⟩
  have hle := h.le
  norm_num at hle

end

end Score

end Assay
