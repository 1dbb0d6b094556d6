import Assay.Proofs.OneToOne

/-!
# Heaviest matchings

In a region of pairs with a weight, a pair whose weight is not positive is no pair at all. `Heaviest`
says that a one-to-one set weighs as much as any other of the region. Regions that share no position are
solved apart (`Heaviest.union`), and positions may be renamed or change sides.
-/

namespace Assay

open Finset

/-- A one-to-one set of pairs of positive weight, of the greatest weight in the region `G`. -/
structure Heaviest (G : Pairs) (w : ℕ × ℕ → ℤ) (M : Pairs) : Prop where
  oneToOne : OneToOne M
  inside : M ⊆ G
  positive : ∀ p ∈ M, 0 < w p
  heaviest : ∀ Q ⊆ G, OneToOne Q → ∑ p ∈ Q, max (w p) 0 ≤ ∑ p ∈ M, w p

namespace Heaviest

variable {G G' M M' : Pairs} {w w' : ℕ × ℕ → ℤ}

/-- If no pair is one, the empty set is heaviest. -/
theorem empty (h : ∀ p ∈ G, w p ≤ 0) : Heaviest G w ∅ := by
  refine ⟨⟨by simp, by simp⟩, by simp, by simp, ?_⟩
  intro Q hQ _
  rw [sum_empty]
  exact le_of_eq (sum_eq_zero fun p hp => max_eq_right (h p (hQ hp)))

theorem congr (h : Heaviest G w M) (hw : ∀ p ∈ G, w' p = w p) : Heaviest G w' M := by
  refine ⟨h.oneToOne, h.inside, fun p hp => ?_, fun Q hQ oQ => ?_⟩
  · rw [hw p (h.inside hp)]; exact h.positive p hp
  · calc ∑ p ∈ Q, max (w' p) 0 = ∑ p ∈ Q, max (w p) 0 := sum_congr rfl fun p hp => by rw [hw p (hQ hp)]
      _ ≤ ∑ p ∈ M, w p := h.heaviest Q hQ oQ
      _ = ∑ p ∈ M, w' p := (sum_congr rfl fun p hp => hw p (h.inside hp)).symm

/-- The two sides of a region are alike. -/
theorem flipped (h : Heaviest G (fun p => w p.swap) M) : Heaviest (flipped G) w (flipped M) := by
  refine ⟨h.oneToOne.flipped, ?_, ?_, ?_⟩
  · exact fun p hp => mem_flipped.2 (h.inside (mem_flipped.1 hp))
  · intro p hp
    have := h.positive _ (mem_flipped.1 hp)
    rwa [Prod.swap_swap] at this
  · intro Q hQ oQ
    have := h.heaviest _ (flipped_subset_iff.2 hQ) oQ.flipped
    rw [sum_flipped] at this
    rw [sum_flipped]
    simpa using this

/-- Renaming positions changes nothing. -/
theorem relabeled {f g : ℕ → ℕ} (h : Heaviest G (fun p => w (f p.1, g p.2)) M) (hf : Faithful f g G) :
    Heaviest (relabeled f g G) w (relabeled f g M) := by
  refine ⟨h.oneToOne.relabeled (hf.mono h.inside), relabeled_mono h.inside, ?_, ?_⟩
  · intro p hp
    obtain ⟨q, hq, rfl⟩ := mem_image.1 hp
    exact h.positive q hq
  · intro Q hQ oQ
    obtain ⟨P, hP, oP, rfl⟩ := exists_relabeled hf hQ oQ
    rw [sum_relabeled (hf.mono hP), sum_relabeled (hf.mono h.inside)]
    exact h.heaviest P hP oP

/-- Regions that share no position are solved apart. -/
theorem union (h : Heaviest G w M) (h' : Heaviest G' w M') (hf : Disjoint (firsts G) (firsts G'))
    (hs : Disjoint (seconds G) (seconds G')) : Heaviest (G ∪ G') w (M ∪ M') := by
  have apart : ∀ p ∈ G, ∀ q ∈ G', p.1 ≠ q.1 ∧ p.2 ≠ q.2 := fun p hp q hq =>
    ⟨fun e => disjoint_left.1 hf (mem_firsts.2 ⟨p.2, hp⟩) (e ▸ mem_firsts.2 ⟨q.2, hq⟩),
      fun e => disjoint_left.1 hs (mem_seconds.2 ⟨p.1, hp⟩) (e ▸ mem_seconds.2 ⟨q.1, hq⟩)⟩
  have disj : ∀ {P P' : Pairs}, P ⊆ G → P' ⊆ G' → Disjoint P P' := fun hP hP' =>
    disjoint_left.2 fun p hp hp' => (apart p (hP hp) p (hP' hp')).1 rfl
  refine ⟨?_, union_subset_union h.inside h'.inside, ?_, ?_⟩
  · exact h.oneToOne.union h'.oneToOne fun p hp q hq => apart p (h.inside hp) q (h'.inside hq)
  · intro p hp
    rcases mem_union.1 hp with hp | hp
    · exact h.positive p hp
    · exact h'.positive p hp
  · intro Q hQ oQ
    have hQs : Q = Q ∩ G ∪ Q ∩ G' := by rw [← inter_union_distrib_left]; exact (inter_eq_left.2 hQ).symm
    have b := h.heaviest (Q ∩ G) inter_subset_right (oQ.mono inter_subset_left)
    have b' := h'.heaviest (Q ∩ G') inter_subset_right (oQ.mono inter_subset_left)
    calc ∑ p ∈ Q, max (w p) 0 = ∑ p ∈ Q ∩ G, max (w p) 0 + ∑ p ∈ Q ∩ G', max (w p) 0 := by
          rw [← sum_union (disj inter_subset_right inter_subset_right), ← hQs]
      _ ≤ ∑ p ∈ M, w p + ∑ p ∈ M', w p := add_le_add b b'
      _ = ∑ p ∈ M ∪ M', w p := (sum_union (disj h.inside h'.inside)).symm

end Heaviest

end Assay
