import Assay.Proofs.Doubles
import Assay.Proofs.Faultless
import Assay.Matching.Weight

/-!
# The candidate rule

A finding may match a defect of its file and of a category that it has with some confidence, if its line
is within the tolerance of the middle of the defect or if it has no usable line. Distances are those of
doubles: a finite number that does not exceed the tolerance. Whatever gets a weight follows the rule.
-/

namespace Assay

open Binary64

/-- The distance of a line to the middle of a defect is at most the tolerance. -/
def WithinTolerance (s : MatchSettings) (line : ℤ) (d : Defect) : Prop :=
  ∃ x middle a k, floatOfInt line = .ok x ∧ d.location.midpoint = .ok middle ∧
    ratio? (x - middle).abs = some (a, k) ∧ 0 < k ∧ a ≤ s.tolerance * k

/-- The candidate rule. -/
structure Admits (s : MatchSettings) (f : Finding) (d : Defect) : Prop where
  file : f.file = d.file
  confident : 0 < f.confidenceFor d.category
  near : f.coarse = true ∨ f.line = none ∨ ∃ line, f.line = some line ∧ WithinTolerance s line d

variable {s : MatchSettings} {f : Finding} {d : Defect} {w : Float}

/-- A confidence is a number, even if some of the finding's are not. -/
theorem isNaN_confidenceFor (f : Finding) (c : Category) : (parts (f.confidenceFor c)).isNaN = false := by
  have step : ∀ (rs : List Classification) (best : Float), (parts best).isNaN = false →
      (parts (rs.foldl (fun best r => if r.category == c && r.confidence > best then r.confidence else best)
        best)).isNaN = false := by
    intro rs
    induction rs with
    | nil => exact fun best h => h
    | cons r rs ih =>
      intro best h
      refine ih _ ?_
      dsimp only
      split
      · rename_i hr
        exact isNaN_of_lt (of_decide_eq_true (Bool.and_eq_true_iff.1 hr).2)
      · exact h
  exact step f.categories 0 (by rw [parts_zero]; rfl)

theorem isFinite_floatOfInt {n : ℤ} {x : Float} (h : floatOfInt n = .ok x) : (parts x).isFinite = true := by
  unfold floatOfInt at h
  split at h
  · rename_i hx
    exact isFinite_ofInt (hx.trans (congrArg some (Except.ok.inj h)))
  · cases h

theorem isNaN_midpoint {l : Location} {x : Float} (h : l.midpoint = .ok x) : (parts x).isNaN = false := by
  unfold Location.midpoint at h
  split at h
  · rename_i y hy
    rw [← Except.ok.inj h]
    exact isNaN_half (isFinite_ofInt hy)
  · cases h

/-- **Candidates.** What gets a weight follows the candidate rule. -/
theorem admits_of_pairWeight (h : pairWeight s f d = .ok (some w)) : Admits s f d := by
  unfold pairWeight at h
  split at h
  · cases pure_eq_ok.1 h
  rename_i hfile
  simp only at h
  split at h
  · cases pure_eq_ok.1 h
  rename_i hconf
  refine ⟨not_not.1 hfile, pos_of_not_le (isNaN_confidenceFor _ _) hconf, ?_⟩
  split at h
  · rename_i line hline
    split at h
    · rename_i hcoarse; exact Or.inl hcoarse
    · obtain ⟨middle, hmiddle, h⟩ := bind_eq_ok.1 h
      obtain ⟨x, hx, h⟩ := bind_eq_ok.1 h
      split at h
      · cases pure_eq_ok.1 h
      rename_i hfar
      have hnum := isNaN_sub (isFinite_floatOfInt hx) (isNaN_midpoint hmiddle)
      obtain ⟨a, k, hr, hk, hle⟩ := exists_ratio_le ((isMinus_abs (x - middle)).1.trans hnum)
        (isMinus_abs (x - middle)).2 fun e => hfar (beq_iff_eq.2 e)
      exact Or.inr (Or.inr ⟨line, hline, x, middle, a, k, hx, hmiddle, hr, hk, hle⟩)
  · rename_i hline; exact Or.inr (Or.inl hline)

end Assay
