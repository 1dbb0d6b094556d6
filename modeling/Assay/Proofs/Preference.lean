import Assay.Proofs.OneToOne

/-!
# Preferred matchings

Candidates are pairs of positions with a weight, and every position has a bonus. A matching of
candidates is preferred if none weighs more and none of equal weight has more bonus. Bonuses are
only summed up, yet the preference is one between single positions: whatever position another heaviest
matching uses instead, the preferred one uses a position of at least its bonus
(`Preferred.exists_outranks`). And a new second position drives no first position out, whatever the
bonuses are before and after, as long as they rank the first positions alike (`Preferred.firsts_subset`).
-/

namespace Assay

open Finset

/-- No matching of the candidates `E` weighs more than `M`, and none of equal weight has more bonus. -/
structure Preferred (E : Pairs) (w : ℕ × ℕ → ℕ) (a b : ℕ → ℕ) (M : Pairs) : Prop where
  subset : M ⊆ E
  oneToOne : OneToOne M
  heaviest : ∀ Q ⊆ E, OneToOne Q → ∑ p ∈ Q, w p ≤ ∑ p ∈ M, w p
  favoured : ∀ Q ⊆ E, OneToOne Q → ∑ p ∈ Q, w p = ∑ p ∈ M, w p →
    ∑ p ∈ Q, (a p.1 + b p.2) ≤ ∑ p ∈ M, (a p.1 + b p.2)

section
variable {E E' M M' K : Pairs} {w : ℕ × ℕ → ℕ} {a b a' b' : ℕ → ℕ} {g : ℕ}

/-- One sum encodes both preferences if a unit of weight exceeds all bonuses of a matching together. -/
theorem Preferred.of_encoded (unit : ℕ) (hs : M ⊆ E) (ho : OneToOne M)
    (hmax : ∀ Q ⊆ E, OneToOne Q →
      ∑ p ∈ Q, (w p * unit + (a p.1 + b p.2)) ≤ ∑ p ∈ M, (w p * unit + (a p.1 + b p.2)))
    (hunit : ∑ p ∈ M, (a p.1 + b p.2) < unit) : Preferred E w a b M := by
  have split : ∀ Q : Pairs, ∑ p ∈ Q, (w p * unit + (a p.1 + b p.2)) =
      (∑ p ∈ Q, w p) * unit + ∑ p ∈ Q, (a p.1 + b p.2) := fun Q => by
    rw [sum_add_distrib, sum_mul]
  refine ⟨hs, ho, ?_, ?_⟩
  · intro Q hQ oQ
    have hm := hmax Q hQ oQ
    rw [split, split] at hm
    by_contra hlt
    have : (∑ p ∈ M, w p + 1) * unit ≤ (∑ p ∈ Q, w p) * unit := Nat.mul_le_mul_right _ (by omega)
    rw [Nat.add_mul, Nat.one_mul] at this
    omega
  · intro Q hQ oQ he
    have hm := hmax Q hQ oQ
    rw [split, split, he] at hm
    omega

/-! ## Two matchings of the same candidates -/

/-- Sharing out anew what two heaviest matchings use gives heaviest matchings. -/
theorem Preferred.exchange_weight (h : Preferred E w a b M) (h' : Preferred E' w a' b' M') {N N' : Pairs}
    (x : Exchange M' M N' N g) (hN' : N' ⊆ E') (hN : N ⊆ E) :
    ∑ p ∈ N', w p = ∑ p ∈ M', w p ∧ ∑ p ∈ N, w p = ∑ p ∈ M, w p := by
  have hs := x.sum w
  have h1 := h'.heaviest N' hN' x.left
  have h2 := h.heaviest N hN x.right
  omega

theorem Grows.sum {N N' : Pairs} {c : ℕ} (x : Grows M K N N' g c) (hM : OneToOne M) (hN : OneToOne N)
    (hg : g ∉ firsts M) : ∑ p ∈ N, (a p.1 + b p.2) = ∑ p ∈ M, (a p.1 + b p.2) + (a g + b c) := by
  rw [hM.sum_add, hN.sum_add, x.firsts_left, x.seconds_left, sum_insert hg, sum_insert x.fresh]
  omega

theorem Trades.sum_left {N N' : Pairs} {y : ℕ} (x : Trades M K N N' g y) (hM : OneToOne M) (hN : OneToOne N)
    (hg : g ∉ firsts M) : ∑ p ∈ N, (a p.1 + b p.2) + a y = ∑ p ∈ M, (a p.1 + b p.2) + a g := by
  have hf := congrArg (fun s => ∑ i ∈ s, a i) x.firsts_left
  simp only [sum_insert x.released_left, sum_insert hg] at hf
  rw [hM.sum_add, hN.sum_add, x.seconds_left]
  omega

theorem Trades.sum_right {N N' : Pairs} {y : ℕ} (x : Trades M K N N' g y) (hK : OneToOne K)
    (hN : OneToOne N') : ∑ p ∈ N', (a p.1 + b p.2) + a g = ∑ p ∈ K, (a p.1 + b p.2) + a y := by
  have hf := congrArg (fun s => ∑ i ∈ s, a i) x.firsts_right
  simp only [sum_insert x.released_right, sum_insert x.fresh] at hf
  rw [hK.sum_add, hN.sum_add, x.seconds_right]
  omega

/-- **Preference.** For a first position that only another heaviest matching uses, the preferred one
uses a first position of at least its bonus that the other does not use. -/
theorem Preferred.exists_outranks (h : Preferred E w a b M) (hK : K ⊆ E) (oK : OneToOne K)
    (hw : ∑ p ∈ K, w p = ∑ p ∈ M, w p) (pos : ∀ i ∈ firsts E, 0 < a i) (hgK : g ∈ firsts K)
    (hgM : g ∉ firsts M) : ∃ x ∈ firsts M, x ∉ firsts K ∧ a g ≤ a x := by
  obtain ⟨N, N', x⟩ := h.oneToOne.exists_exchange oK hgK hgM
  have inE : ∀ p, p ∈ M ∨ p ∈ K → p ∈ E := fun p hp => hp.elim (h.subset ·) (hK ·)
  have hN : N ⊆ E := fun p hp => inE p (x.mem_left hp)
  have hN' : N' ⊆ E := fun p hp => inE p (x.mem_right hp)
  have hs := x.sum w
  have h1 := h.heaviest N hN x.left
  have h2 := h.heaviest N' hN' x.right
  have hb := h.favoured N hN x.left (by omega)
  rcases x.ends with ⟨c, grows⟩ | ⟨y, trades⟩
  · have := grows.sum (a := a) (b := b) h.oneToOne x.left hgM
    have := pos g (firsts_mono hK hgK)
    omega
  · have := trades.sum_left (a := a) (b := b) h.oneToOne x.left hgM
    exact ⟨y, trades.used, trades.fresh, by omega⟩

/-! ## One more second position -/

/-- **Monotonicity.** If candidates are added at new second positions only, every first position that
was used stays in use. -/
theorem Preferred.firsts_subset (h : Preferred E w a b M) (h' : Preferred E' w a' b' M') (hE : E ⊆ E')
    (hnew : ∀ p ∈ E', p.2 ∈ seconds E → p ∈ E) (pos : ∀ i ∈ firsts E', 0 < a' i)
    (ranked : ∀ i ∈ firsts E', ∀ j ∈ firsts E', a j ≤ a i → a' i ≤ a' j → i = j) :
    firsts M ⊆ firsts M' := by
  intro g hg
  by_contra hgM
  obtain ⟨N', N, x⟩ := h'.oneToOne.exists_exchange h.oneToOne hg hgM
  have inE' : ∀ p, p ∈ M' ∨ p ∈ M → p ∈ E' := fun p hp => hp.elim (h'.subset ·) (fun hp => hE (h.subset hp))
  have hN' : N' ⊆ E' := fun p hp => inE' p (x.mem_left hp)
  have snd : seconds N ⊆ seconds M := by
    rcases x.ends with ⟨c, grows⟩ | ⟨y, trades⟩
    · rw [grows.seconds_right]; exact erase_subset _ _
    · rw [trades.seconds_right]
  have hN : N ⊆ E := fun p hp =>
    hnew p (inE' p (x.mem_right hp)) (seconds_mono h.subset (snd (mem_seconds.2 ⟨p.1, hp⟩)))
  obtain ⟨w1, w2⟩ := h.exchange_weight h' x hN' hN
  have b1 := h'.favoured N' hN' x.left w1
  have b2 := h.favoured N hN x.right w2
  have hgE := firsts_mono hE (firsts_mono h.subset hg)
  rcases x.ends with ⟨c, grows⟩ | ⟨y, trades⟩
  · have := grows.sum (a := a') (b := b') h'.oneToOne x.left hgM
    have := pos g hgE
    omega
  · have s1 := trades.sum_left (a := a') (b := b') h'.oneToOne x.left hgM
    have s2 := trades.sum_right (a := a) (b := b) h.oneToOne x.right
    have : g = y := ranked g hgE y (firsts_mono h'.subset trades.used) (by omega) (by omega)
    exact trades.fresh (this ▸ hg)

end

/-! ## From either side -/

section
variable {E E' M M' K : Pairs} {w : ℕ × ℕ → ℕ} {a b a' b' : ℕ → ℕ} {g : ℕ}

/-- Preference is the same from either side. -/
theorem Preferred.flipped (h : Preferred E w a b M) :
    Preferred (flipped E) (fun p => w p.swap) b a (flipped M) := by
  have bonus : ∀ Q : Pairs, ∑ p ∈ Q, (b p.1 + a p.2) = ∑ p ∈ Assay.flipped Q, (a p.1 + b p.2) := fun Q => by
    rw [sum_flipped]; exact sum_congr rfl fun p _ => Nat.add_comm _ _
  refine ⟨flipped_subset_iff.2 (by simpa using h.subset), h.oneToOne.flipped, ?_, ?_⟩
  · intro Q hQ oQ
    rw [sum_flipped M]
    simpa [sum_flipped] using h.heaviest _ (flipped_subset_iff.2 hQ) oQ.flipped
  · intro Q hQ oQ he
    rw [bonus, bonus, flipped_flipped]
    refine h.favoured _ (flipped_subset_iff.2 hQ) oQ.flipped ?_
    rw [sum_flipped] at he ⊢
    simpa using he

/-- The preference among second positions. -/
theorem Preferred.exists_outranks_second (h : Preferred E w a b M) (hK : K ⊆ E) (oK : OneToOne K)
    (hw : ∑ p ∈ K, w p = ∑ p ∈ M, w p) (pos : ∀ i ∈ seconds E, 0 < b i) (hgK : g ∈ seconds K)
    (hgM : g ∉ seconds M) : ∃ x ∈ seconds M, x ∉ seconds K ∧ b g ≤ b x := by
  have hw' : ∑ p ∈ Assay.flipped K, w p.swap = ∑ p ∈ Assay.flipped M, w p.swap := by
    simpa [sum_flipped] using hw
  simpa using h.flipped.exists_outranks (flipped_subset_iff.2 (by simpa using hK)) oK.flipped hw'
    (by simpa using pos) (g := g) (by simpa using hgK) (by simpa using hgM)

/-- If candidates are added at new first positions only, every second position that was used stays in
use. -/
theorem Preferred.seconds_subset (h : Preferred E w a b M) (h' : Preferred E' w a' b' M') (hE : E ⊆ E')
    (hnew : ∀ p ∈ E', p.1 ∈ firsts E → p ∈ E) (pos : ∀ i ∈ seconds E', 0 < b' i)
    (ranked : ∀ i ∈ seconds E', ∀ j ∈ seconds E', b j ≤ b i → b' i ≤ b' j → i = j) :
    seconds M ⊆ seconds M' := by
  have := h.flipped.firsts_subset h'.flipped (flipped_subset_iff.2 (by simpa using hE))
    (by intro p hp hs; simpa using hnew p.swap (by simpa using hp) (by simpa using hs))
    (by simpa using pos) (by simpa using ranked)
  simpa using this

/-! ## Relabeled positions -/

/-- Preference does not depend on how positions are numbered. -/
theorem Preferred.relabeled {f h : ℕ → ℕ}
    (P : Preferred E (fun p => w (f p.1, h p.2)) (fun i => a (f i)) (fun j => b (h j)) M) (hf : Faithful f h E) :
    Preferred (relabeled f h E) w a b (relabeled f h M) := by
  have hsum : ∀ Q ⊆ E, ∀ x : ℕ × ℕ → ℕ, ∑ p ∈ Assay.relabeled f h Q, x p = ∑ p ∈ Q, x (f p.1, h p.2) :=
    fun Q hQ x => sum_relabeled (hf.mono hQ) x
  refine ⟨relabeled_mono P.subset, P.oneToOne.relabeled (hf.mono P.subset), ?_, ?_⟩
  · intro Q hQ oQ
    obtain ⟨R, hR, oR, rfl⟩ := exists_relabeled hf hQ oQ
    rw [hsum R hR, hsum M P.subset]
    exact P.heaviest R hR oR
  · intro Q hQ oQ he
    obtain ⟨R, hR, oR, rfl⟩ := exists_relabeled hf hQ oQ
    rw [hsum R hR, hsum M P.subset] at he
    rw [hsum R hR fun p => a p.1 + b p.2, hsum M P.subset fun p => a p.1 + b p.2]
    exact P.favoured R hR oR he

end

end Assay
