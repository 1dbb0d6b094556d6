import Mathlib

/-!
# One-to-one sets of pairs

A matching is a finite set of pairs of positions that uses no first and no second position twice. Two
matchings are compared along an alternating path: `OneToOne.exists_exchange` starts at a first position
that only `K` uses and shares out the pairs of both anew, so that the other one uses it. No pair is
gained or lost, hence no weight either, and only the two ends of the path change hands.
-/

namespace Assay

open Finset

/-- A set of pairs of positions. -/
abbrev Pairs := Finset (ℕ × ℕ)

/-- No position is used twice. -/
structure OneToOne (M : Pairs) : Prop where
  fst_inj : ∀ p ∈ M, ∀ q ∈ M, p.1 = q.1 → p = q
  snd_inj : ∀ p ∈ M, ∀ q ∈ M, p.2 = q.2 → p = q

/-- The first positions that a set of pairs uses. -/
def firsts (M : Pairs) : Finset ℕ := M.image Prod.fst

/-- The second positions that a set of pairs uses. -/
def seconds (M : Pairs) : Finset ℕ := M.image Prod.snd

section
variable {M N K : Pairs} {p q : ℕ × ℕ} {g c x : ℕ}

theorem mem_firsts : g ∈ firsts M ↔ ∃ c, (g, c) ∈ M := by simp [firsts]

theorem mem_seconds : c ∈ seconds M ↔ ∃ g, (g, c) ∈ M := by simp [seconds]

theorem firsts_insert (M : Pairs) (p : ℕ × ℕ) : firsts (insert p M) = insert p.1 (firsts M) := image_insert ..

theorem seconds_insert (M : Pairs) (p : ℕ × ℕ) : seconds (insert p M) = insert p.2 (seconds M) := image_insert ..

theorem firsts_mono (h : M ⊆ N) : firsts M ⊆ firsts N := image_subset_image h

theorem seconds_mono (h : M ⊆ N) : seconds M ⊆ seconds N := image_subset_image h

theorem OneToOne.mono (h : OneToOne M) (hs : N ⊆ M) : OneToOne N :=
  ⟨fun p hp q hq => h.fst_inj p (hs hp) q (hs hq), fun p hp q hq => h.snd_inj p (hs hp) q (hs hq)⟩

theorem OneToOne.firsts_erase (h : OneToOne M) (hp : p ∈ M) : firsts (M.erase p) = (firsts M).erase p.1 := by
  ext g
  simp only [mem_firsts, mem_erase]
  constructor
  · rintro ⟨c, hne, hc⟩; exact ⟨fun hg => hne (h.fst_inj _ hc _ hp hg), c, hc⟩
  · rintro ⟨hne, c, hc⟩; exact ⟨c, fun he => hne (congrArg Prod.fst he), hc⟩

theorem OneToOne.seconds_erase (h : OneToOne M) (hp : p ∈ M) :
    seconds (M.erase p) = (seconds M).erase p.2 := by
  ext c
  simp only [mem_seconds, mem_erase]
  constructor
  · rintro ⟨g, hne, hg⟩; exact ⟨fun hc => hne (h.snd_inj _ hg _ hp hc), g, hg⟩
  · rintro ⟨hne, g, hg⟩; exact ⟨g, fun he => hne (congrArg Prod.snd he), hg⟩

/-- A pair of two unused positions may be added. -/
theorem OneToOne.add (h : OneToOne M) (h1 : p.1 ∉ firsts M) (h2 : p.2 ∉ seconds M) :
    OneToOne (insert p M) := by
  have f1 : ∀ q ∈ M, q.1 ≠ p.1 := fun q hq he => h1 (he ▸ mem_image_of_mem _ hq)
  have f2 : ∀ q ∈ M, q.2 ≠ p.2 := fun q hq he => h2 (he ▸ mem_image_of_mem _ hq)
  constructor
  · intro x hx y hy hxy
    rw [mem_insert] at hx hy
    rcases hx with rfl | hx <;> rcases hy with rfl | hy
    · rfl
    · exact absurd hxy.symm (f1 y hy)
    · exact absurd hxy (f1 x hx)
    · exact h.fst_inj x hx y hy hxy
  · intro x hx y hy hxy
    rw [mem_insert] at hx hy
    rcases hx with rfl | hx <;> rcases hy with rfl | hy
    · rfl
    · exact absurd hxy.symm (f2 y hy)
    · exact absurd hxy (f2 x hx)
    · exact h.snd_inj x hx y hy hxy

/-- Matchings that share no position are one matching. -/
theorem OneToOne.union (h : OneToOne M) (h' : OneToOne N) (apart : ∀ p ∈ M, ∀ q ∈ N, p.1 ≠ q.1 ∧ p.2 ≠ q.2) :
    OneToOne (M ∪ N) := by
  constructor
  · intro p hp q hq he
    rcases mem_union.1 hp with hp | hp <;> rcases mem_union.1 hq with hq | hq
    · exact h.fst_inj p hp q hq he
    · exact absurd he (apart p hp q hq).1
    · exact absurd he.symm (apart q hq p hp).1
    · exact h'.fst_inj p hp q hq he
  · intro p hp q hq he
    rcases mem_union.1 hp with hp | hp <;> rcases mem_union.1 hq with hq | hq
    · exact h.snd_inj p hp q hq he
    · exact absurd he (apart p hp q hq).2
    · exact absurd he.symm (apart q hq p hp).2
    · exact h'.snd_inj p hp q hq he

/-! ## Sums over positions -/

theorem OneToOne.sum_fst (h : OneToOne M) {γ : Type*} [AddCommMonoid γ] (f : ℕ → γ) :
    ∑ p ∈ M, f p.1 = ∑ g ∈ firsts M, f g :=
  (sum_image fun p hp q hq he => h.fst_inj p hp q hq he).symm

theorem OneToOne.sum_snd (h : OneToOne M) {γ : Type*} [AddCommMonoid γ] (f : ℕ → γ) :
    ∑ p ∈ M, f p.2 = ∑ c ∈ seconds M, f c :=
  (sum_image fun p hp q hq he => h.snd_inj p hp q hq he).symm

/-- A weight that adds up from weights of positions depends on the positions in use only. -/
theorem OneToOne.sum_add (h : OneToOne M) {γ : Type*} [AddCommMonoid γ] (a b : ℕ → γ) :
    ∑ p ∈ M, (a p.1 + b p.2) = ∑ g ∈ firsts M, a g + ∑ c ∈ seconds M, b c := by
  rw [sum_add_distrib, h.sum_fst, h.sum_snd]

theorem OneToOne.card_firsts (h : OneToOne M) : (firsts M).card = M.card :=
  card_image_of_injOn fun p hp q hq he => h.fst_inj p hp q hq he

theorem OneToOne.card_seconds (h : OneToOne M) : (seconds M).card = M.card :=
  card_image_of_injOn fun p hp q hq he => h.snd_inj p hp q hq he

end

/-! ## The two sides of a pair -/

/-- The pairs with their positions exchanged. -/
def flipped (M : Pairs) : Pairs := M.image Prod.swap

section
variable {M K : Pairs} {p : ℕ × ℕ}

@[simp] theorem mem_flipped : p ∈ flipped M ↔ p.swap ∈ M := by
  simp only [flipped, mem_image]
  exact ⟨fun ⟨q, hq, he⟩ => by rw [← he, Prod.swap_swap]; exact hq, fun h => ⟨p.swap, h, p.swap_swap⟩⟩

@[simp] theorem flipped_flipped (M : Pairs) : flipped (flipped M) = M := by ext p; simp

@[simp] theorem firsts_flipped (M : Pairs) : firsts (flipped M) = seconds M := by
  ext g; simp [mem_firsts, mem_seconds]

@[simp] theorem seconds_flipped (M : Pairs) : seconds (flipped M) = firsts M := by
  ext g; simp [mem_firsts, mem_seconds]

theorem flipped_subset_iff : flipped M ⊆ K ↔ M ⊆ flipped K := by
  constructor
  · intro h p hp; exact mem_flipped.2 (h (mem_flipped.2 (by simpa using hp)))
  · intro h p hp; simpa using h (mem_flipped.1 hp)

theorem sum_flipped {γ : Type*} [AddCommMonoid γ] (M : Pairs) (w : ℕ × ℕ → γ) :
    ∑ p ∈ flipped M, w p = ∑ p ∈ M, w p.swap :=
  sum_image fun _ _ _ _ h => Prod.swap_injective h

theorem OneToOne.flipped (h : OneToOne M) : OneToOne (flipped M) := by
  constructor
  · intro p hp q hq he
    exact Prod.swap_injective (h.snd_inj _ (mem_flipped.1 hp) _ (mem_flipped.1 hq) he)
  · intro p hp q hq he
    exact Prod.swap_injective (h.fst_inj _ (mem_flipped.1 hp) _ (mem_flipped.1 hq) he)

end

/-! ## Relabeled positions -/

/-- The pairs with their positions renamed. -/
def relabeled (f h : ℕ → ℕ) (M : Pairs) : Pairs := M.image (Prod.map f h)

/-- No two first and no two second positions get the same name. -/
structure Faithful (f h : ℕ → ℕ) (M : Pairs) : Prop where
  fst : Set.InjOn f (firsts M)
  snd : Set.InjOn h (seconds M)

section
variable {M N K Q : Pairs} {f h : ℕ → ℕ} {p q : ℕ × ℕ}

theorem mem_relabeled : p ∈ relabeled f h M ↔ ∃ q ∈ M, f q.1 = p.1 ∧ h q.2 = p.2 := by
  simp only [relabeled, mem_image, Prod.ext_iff, Prod.map_fst, Prod.map_snd]

theorem relabeled_mono (hs : N ⊆ M) : relabeled f h N ⊆ relabeled f h M := image_subset_image hs

theorem firsts_relabeled (f h : ℕ → ℕ) (M : Pairs) : firsts (relabeled f h M) = (firsts M).image f := by
  simp only [firsts, relabeled, image_image]; rfl

theorem seconds_relabeled (f h : ℕ → ℕ) (M : Pairs) : seconds (relabeled f h M) = (seconds M).image h := by
  simp only [seconds, relabeled, image_image]; rfl

theorem Faithful.mono (hf : Faithful f h M) (hs : N ⊆ M) : Faithful f h N :=
  ⟨hf.fst.mono (coe_subset.2 (firsts_mono hs)), hf.snd.mono (coe_subset.2 (seconds_mono hs))⟩

theorem Faithful.fst_eq (hf : Faithful f h M) (hp : p ∈ M) (hq : q ∈ M) (he : f p.1 = f q.1) : p.1 = q.1 :=
  hf.fst (mem_coe.2 (mem_firsts.2 ⟨p.2, hp⟩)) (mem_coe.2 (mem_firsts.2 ⟨q.2, hq⟩)) he

theorem Faithful.snd_eq (hf : Faithful f h M) (hp : p ∈ M) (hq : q ∈ M) (he : h p.2 = h q.2) : p.2 = q.2 :=
  hf.snd (mem_coe.2 (mem_seconds.2 ⟨p.1, hp⟩)) (mem_coe.2 (mem_seconds.2 ⟨q.1, hq⟩)) he

theorem Faithful.injOn (hf : Faithful f h M) : Set.InjOn (Prod.map f h) M := by
  intro p hp q hq he
  obtain ⟨h1, h2⟩ := Prod.mk.inj he
  exact Prod.ext (hf.fst_eq hp hq h1) (hf.snd_eq hp hq h2)

theorem sum_relabeled {γ : Type*} [AddCommMonoid γ] (hf : Faithful f h M) (w : ℕ × ℕ → γ) :
    ∑ p ∈ relabeled f h M, w p = ∑ p ∈ M, w (f p.1, h p.2) :=
  sum_image hf.injOn

theorem OneToOne.relabeled (o : OneToOne M) (hf : Faithful f h M) : OneToOne (relabeled f h M) := by
  constructor
  · intro x hx y hy he
    obtain ⟨p, hp, rfl⟩ := mem_image.1 hx
    obtain ⟨q, hq, rfl⟩ := mem_image.1 hy
    rw [o.fst_inj p hp q hq (hf.fst_eq hp hq he)]
  · intro x hx y hy he
    obtain ⟨p, hp, rfl⟩ := mem_image.1 hx
    obtain ⟨q, hq, rfl⟩ := mem_image.1 hy
    rw [o.snd_inj p hp q hq (hf.snd_eq hp hq he)]

/-- Every one-to-one set of relabeled pairs comes from one of pairs. -/
theorem exists_relabeled (hf : Faithful f h M) (hQ : Q ⊆ relabeled f h M) (oQ : OneToOne Q) :
    ∃ P ⊆ M, OneToOne P ∧ Q = relabeled f h P := by
  refine ⟨M.filter fun p => Prod.map f h p ∈ Q, filter_subset _ _, ⟨?_, ?_⟩, ?_⟩
  · intro p hp q hq he
    rw [mem_filter] at hp hq
    exact hf.injOn hp.1 hq.1 (oQ.fst_inj _ hp.2 _ hq.2 (congrArg f he))
  · intro p hp q hq he
    rw [mem_filter] at hp hq
    exact hf.injOn hp.1 hq.1 (oQ.snd_inj _ hp.2 _ hq.2 (congrArg h he))
  · ext x
    constructor
    · intro hx
      obtain ⟨p, hp, rfl⟩ := mem_image.1 (hQ hx)
      exact mem_image_of_mem _ (mem_filter.2 ⟨hp, hx⟩)
    · intro hx
      obtain ⟨p, hp, rfl⟩ := mem_image.1 hx
      exact (mem_filter.1 hp).2

end

/-! ## Exchange along an alternating path -/

/-- The path ends at a second position that `M` does not use: `M` gains both ends, `K` loses them. -/
structure Grows (M K M' K' : Pairs) (g c : ℕ) : Prop where
  used : c ∈ seconds K
  fresh : c ∉ seconds M
  firsts_left : firsts M' = insert g (firsts M)
  seconds_left : seconds M' = insert c (seconds M)
  firsts_right : firsts K' = (firsts K).erase g
  seconds_right : seconds K' = (seconds K).erase c

/-- The path ends at a first position `x` that `K` does not use: `M` gives `x` for `g`. -/
structure Trades (M K M' K' : Pairs) (g x : ℕ) : Prop where
  used : x ∈ firsts M
  fresh : x ∉ firsts K
  released_left : x ∉ firsts M'
  released_right : g ∉ firsts K'
  firsts_left : insert x (firsts M') = insert g (firsts M)
  firsts_right : insert g (firsts K') = insert x (firsts K)
  seconds_left : seconds M' = seconds M
  seconds_right : seconds K' = seconds K

/-- `M'` and `K'` share out the pairs of `M` and `K` anew, and `g` passes from `K` to `M'`. -/
structure Exchange (M K M' K' : Pairs) (g : ℕ) : Prop where
  left : OneToOne M'
  right : OneToOne K'
  pairs : M'.val + K'.val = M.val + K.val
  ends : (∃ c, Grows M K M' K' g c) ∨ ∃ x, Trades M K M' K' g x

section
variable {M K M' K' M₂ K₂ : Pairs} {p q : ℕ × ℕ} {g c x : ℕ}

/-- An exchange keeps every weight of the pairs. -/
theorem Exchange.sum (h : Exchange M K M' K' g) {γ : Type*} [AddCommMonoid γ] (w : ℕ × ℕ → γ) :
    ∑ p ∈ M', w p + ∑ p ∈ K', w p = ∑ p ∈ M, w p + ∑ p ∈ K, w p := by
  have := congrArg (fun s => (s.map w).sum) h.pairs
  rw [Multiset.map_add, Multiset.sum_add, Multiset.map_add, Multiset.sum_add] at this
  exact this

theorem Exchange.mem_left (h : Exchange M K M' K' g) (hp : p ∈ M') : p ∈ M ∨ p ∈ K := by
  have : p ∈ M.val + K.val := by rw [← h.pairs]; exact Multiset.mem_add.2 (Or.inl hp)
  exact Multiset.mem_add.1 this

theorem Exchange.mem_right (h : Exchange M K M' K' g) (hp : p ∈ K') : p ∈ M ∨ p ∈ K := by
  have : p ∈ M.val + K.val := by rw [← h.pairs]; exact Multiset.mem_add.2 (Or.inr hp)
  exact Multiset.mem_add.1 this

/-- Giving a pair of `K` to the one and a pair of `M` to the other loses none. -/
theorem val_swap (hp : p ∈ K) (hq : q ∈ M) (hpM : p ∉ M₂) (hqK : q ∉ K₂)
    (h : M₂.val + K₂.val = (M.erase q).val + (K.erase p).val) :
    (insert p M₂).val + (insert q K₂).val = M.val + K.val := by
  have hM : M.val = q ::ₘ (M.erase q).val := by rw [erase_val]; exact (Multiset.cons_erase hq).symm
  have hK : K.val = p ::ₘ (K.erase p).val := by rw [erase_val]; exact (Multiset.cons_erase hp).symm
  rw [insert_val_of_notMem hpM, insert_val_of_notMem hqK, hM, hK]
  simp only [Multiset.cons_add, Multiset.add_cons]
  rw [h, Multiset.cons_swap]

/-- The path of one pair. -/
theorem OneToOne.exchange_fresh (hM : OneToOne M) (hK : OneToOne K) (hp : p ∈ K) (h1 : p.1 ∉ firsts M)
    (h2 : p.2 ∉ seconds M) : Exchange M K (insert p M) (K.erase p) p.1 := by
  refine ⟨hM.add h1 h2, hK.mono (erase_subset _ _), ?_, Or.inl ⟨p.2, ?_⟩⟩
  · have hpM : p ∉ M := fun h => h1 (mem_image_of_mem _ h)
    rw [insert_val_of_notMem hpM, erase_val, Multiset.cons_add, ← Multiset.add_cons,
      Multiset.cons_erase (mem_def.1 hp)]
  · exact ⟨mem_image_of_mem _ hp, h2, firsts_insert .., seconds_insert .., hK.firsts_erase hp,
      hK.seconds_erase hp⟩

/-- A pair of `K` and a pair of `M` meet at the second position `c`, and `M` does not use the first position of the
former: what each set uses without its pair. -/
structure Meet (M K : Pairs) (g c x : ℕ) : Prop where
  firsts_left : firsts (M.erase (x, c)) = (firsts M).erase x
  seconds_left : seconds (M.erase (x, c)) = (seconds M).erase c
  firsts_right : firsts (K.erase (g, c)) = (firsts K).erase g
  seconds_right : seconds (K.erase (g, c)) = (seconds K).erase c
  end_left : x ∈ firsts M
  end_right : g ∈ firsts K
  middle_left : c ∈ seconds M
  middle_right : c ∈ seconds K
  ne : g ≠ x

theorem OneToOne.meet (hM : OneToOne M) (hK : OneToOne K) (hp : (g, c) ∈ K) (hq : (x, c) ∈ M)
    (hg : g ∉ firsts M) : Meet M K g c x where
  firsts_left := hM.firsts_erase hq
  seconds_left := hM.seconds_erase hq
  firsts_right := hK.firsts_erase hp
  seconds_right := hK.seconds_erase hp
  end_left := mem_firsts.2 ⟨c, hq⟩
  end_right := mem_firsts.2 ⟨c, hp⟩
  middle_left := mem_seconds.2 ⟨x, hq⟩
  middle_right := mem_seconds.2 ⟨g, hp⟩
  ne := fun h => hg (h ▸ mem_firsts.2 ⟨c, hq⟩)

/-- The path of two pairs that meet at a second position. -/
theorem OneToOne.exchange_pair (hM : OneToOne M) (hK : OneToOne K) (hp : (g, c) ∈ K) (hq : (x, c) ∈ M)
    (hg : g ∉ firsts M) (hx : x ∉ firsts K) :
    Exchange M K (insert (g, c) (M.erase (x, c))) (insert (x, c) (K.erase (g, c))) g := by
  obtain ⟨fM, sM, fK, sK, xM, gK, cM, cK, gx⟩ := hM.meet hK hp hq hg
  have lM : OneToOne (insert (g, c) (M.erase (x, c))) :=
    (hM.mono (erase_subset _ _)).add (by rw [fM]; grind) (by rw [sM]; grind)
  have lK : OneToOne (insert (x, c) (K.erase (g, c))) :=
    (hK.mono (erase_subset _ _)).add (by rw [fK]; grind) (by rw [sK]; grind)
  refine ⟨lM, lK, val_swap hp hq ?_ ?_ rfl, Or.inr ⟨x, xM, hx, ?_, ?_, ?_, ?_, ?_, ?_⟩⟩
  · exact fun h => hg (mem_firsts.2 ⟨c, mem_of_mem_erase h⟩)
  · exact fun h => hx (mem_firsts.2 ⟨c, mem_of_mem_erase h⟩)
  all_goals simp only [firsts_insert, seconds_insert, fM, fK, sM, sK]
  all_goals grind

/-- The rest of a path touches neither of the first two positions, and `K` has lost the third. -/
theorem Meet.fresh (m : Meet M K g c x) (hg : g ∉ firsts M)
    (h : Exchange (M.erase (x, c)) (K.erase (g, c)) M₂ K₂ x) :
    g ∉ firsts M₂ ∧ c ∉ seconds M₂ ∧ x ∉ firsts K₂ ∧ c ∉ seconds K₂ := by
  obtain ⟨fM, sM, fK, sK, xM, gK, cM, cK, gx⟩ := m
  rcases h.ends with ⟨d, hd⟩ | ⟨y, hy⟩
  · obtain ⟨u, f, fl, sl, fr, sr⟩ := hd
    rw [fl, sl, fr, sr]
    grind
  · obtain ⟨u, f, rl, rr, fl, fr, sl, sr⟩ := hy
    have hgl : g ∈ insert y (firsts M₂) ↔ g ∈ insert x (firsts (M.erase (x, c))) := by rw [fl]
    rw [sl, sr]
    grind

/-- A longer path ends where its rest does: at a second position. -/
theorem Meet.grows (m : Meet M K g c x) (hx : x ∈ firsts K) {d : ℕ}
    (h : Grows (M.erase (x, c)) (K.erase (g, c)) M₂ K₂ x d) :
    Grows M K (insert (g, c) M₂) (insert (x, c) K₂) g d := by
  obtain ⟨fM, sM, fK, sK, xM, gK, cM, cK, gx⟩ := m
  obtain ⟨u, f, fl, sl, fr, sr⟩ := h
  rw [sK] at u
  rw [sM] at f
  refine ⟨mem_of_mem_erase u, ?_, ?_, ?_, ?_, ?_⟩
  · grind
  · rw [firsts_insert, fl, fM, insert_erase xM]
  · rw [seconds_insert, sl, sM, Finset.insert_comm, insert_erase cM]
  · rw [firsts_insert, fr, fK, insert_erase (mem_erase.2 ⟨gx.symm, hx⟩)]
  · rw [seconds_insert, sr, sK]
    grind

/-- A longer path ends where its rest does: at a first position. -/
theorem Meet.trades (m : Meet M K g c x) (hg : g ∉ firsts M) {y : ℕ}
    (h : Trades (M.erase (x, c)) (K.erase (g, c)) M₂ K₂ x y) :
    Trades M K (insert (g, c) M₂) (insert (x, c) K₂) g y := by
  obtain ⟨fM, sM, fK, sK, xM, gK, cM, cK, gx⟩ := m
  obtain ⟨u, f, rl, rr, fl, fr, sl, sr⟩ := h
  have fl' : insert y (firsts M₂) = firsts M := by rw [fl, fM, insert_erase xM]
  have fr' : insert x (firsts K₂) = insert y ((firsts K).erase g) := by rw [fr, fK]
  rw [fM] at u
  rw [fK] at f
  refine ⟨mem_of_mem_erase u, ?_, ?_, ?_, ?_, ?_, ?_, ?_⟩
  · grind
  · rw [firsts_insert]
    grind
  · rw [firsts_insert]
    have hgr : g ∈ insert x (firsts K₂) ↔ g ∈ insert y ((firsts K).erase g) := by rw [fr']
    grind
  · rw [firsts_insert, Finset.insert_comm, fl']
  · rw [firsts_insert, fr', Finset.insert_comm, insert_erase gK]
  · rw [seconds_insert, sl, sM, insert_erase cM]
  · rw [seconds_insert, sr, sK, insert_erase cK]

/-- A path gets longer by the two pairs that lead to its start. -/
theorem OneToOne.exchange_extend (hM : OneToOne M) (hK : OneToOne K) (hp : (g, c) ∈ K) (hq : (x, c) ∈ M)
    (hg : g ∉ firsts M) (hx : x ∈ firsts K)
    (h : Exchange (M.erase (x, c)) (K.erase (g, c)) M₂ K₂ x) :
    Exchange M K (insert (g, c) M₂) (insert (x, c) K₂) g := by
  have m := hM.meet hK hp hq hg
  obtain ⟨hg2, hc2, hx2, hcK⟩ := m.fresh hg h
  refine ⟨h.left.add hg2 hc2, h.right.add hx2 hcK, ?_, ?_⟩
  · exact val_swap hp hq (fun e => hg2 (mem_firsts.2 ⟨c, e⟩)) (fun e => hx2 (mem_firsts.2 ⟨c, e⟩)) h.pairs
  · rcases h.ends with ⟨d, hd⟩ | ⟨y, hy⟩
    · exact Or.inl ⟨d, m.grows hx hd⟩
    · exact Or.inr ⟨y, m.trades hg hy⟩

end

/-- **Exchange.** A first position that only `K` uses starts an alternating path. -/
theorem OneToOne.exists_exchange {M K : Pairs} {g : ℕ} (hM : OneToOne M) (hK : OneToOne K)
    (hgK : g ∈ firsts K) (hgM : g ∉ firsts M) : ∃ M' K', Exchange M K M' K' g := by
  obtain ⟨c, hp⟩ := mem_firsts.1 hgK
  by_cases hc : c ∈ seconds M
  · obtain ⟨x, hq⟩ := mem_seconds.1 hc
    by_cases hx : x ∈ firsts K
    · have hxK : x ∈ firsts (K.erase (g, c)) := by
        rw [hK.firsts_erase hp]
        refine mem_erase.2 ⟨fun e => hgM ?_, hx⟩
        exact mem_firsts.2 ⟨c, (show x = g from e) ▸ hq⟩
      have hxM : x ∉ firsts (M.erase (x, c)) := by
        rw [hM.firsts_erase hq]; exact notMem_erase _ _
      have : (K.erase (g, c)).card < K.card := card_erase_lt_of_mem hp
      obtain ⟨M₂, K₂, h⟩ := OneToOne.exists_exchange (hM.mono (erase_subset (x, c) M))
        (hK.mono (erase_subset (g, c) K)) hxK hxM
      exact ⟨_, _, hM.exchange_extend hK hp hq hgM hx h⟩
    · exact ⟨_, _, hM.exchange_pair hK hp hq hgM hx⟩
  · exact ⟨_, _, hM.exchange_fresh hK hp hgM hc⟩
termination_by K.card

end Assay
