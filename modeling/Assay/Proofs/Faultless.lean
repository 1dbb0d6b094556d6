import Mathlib

/-!
# Computations that return

What is known when a computation that may fault returns: each of its steps returned.
-/

namespace Assay

variable {ε α β γ : Type}

theorem bind_eq_ok {x : Except ε α} {f : α → Except ε β} {b : β} :
    (x >>= f) = .ok b ↔ ∃ a, x = .ok a ∧ f a = .ok b := by
  cases x with
  | error e => simp [bind, Except.bind]
  | ok a => simp [bind, Except.bind]

theorem bind_eq_error {x : Except ε α} {f : α → Except ε β} {e : ε} :
    (x >>= f) = .error e ↔ x = .error e ∨ ∃ a, x = .ok a ∧ f a = .error e := by
  cases x with
  | error e => simp [bind, Except.bind]
  | ok a => simp [bind, Except.bind]

/-- A step that always returns is not the one that failed. -/
theorem eq_error_of_bind {x : Except ε α} {f : α → Except ε β} {e : ε} (h : (x >>= f) = .error e)
    (returns : ∀ a, ∃ b, f a = .ok b) : x = .error e := by
  rcases bind_eq_error.1 h with h | ⟨a, -, h⟩
  · exact h
  · obtain ⟨b, hb⟩ := returns a
    cases hb.symm.trans h

theorem pure_eq_ok {a b : α} : (pure a : Except ε α) = .ok b ↔ a = b := by simp [pure, Except.pure]

theorem mapError_eq_ok {δ : Type} {x : Except ε α} {f : ε → δ} {a : α} :
    x.mapError f = .ok a ↔ x = .ok a := by
  cases x <;> simp [Except.mapError]

theorem mapError_eq_error {δ : Type} {x : Except ε α} {f : ε → δ} {e : δ} :
    x.mapError f = .error e ↔ ∃ a, x = .error a ∧ f a = e := by
  cases x <;> simp [Except.mapError]

theorem map_eq_ok {x : Except ε α} {f : α → β} {b : β} :
    x.map f = .ok b ↔ ∃ a, x = .ok a ∧ f a = b := by
  cases x <;> simp [Except.map]

theorem eq_ok_of_toOption {x : Except ε α} {a : α} (h : x.toOption = some a) : x = .ok a := by
  cases x with
  | error e => cases h
  | ok b => exact congrArg _ (Option.some.inj h)

theorem map_eq_of_forall₂ {f : α → β} {l : List α} {l' : List β} (h : List.Forall₂ (fun a b => f a = b) l l') :
    l.map f = l' := by
  induction h with
  | nil => rfl
  | cons hab _ ih => rw [List.map_cons, hab, ih]

/-- A list of computations returns the list of their results. -/
theorem mapM_eq_ok {f : α → Except ε β} : ∀ {l : List α} {r : List β},
    l.mapM f = .ok r ↔ List.Forall₂ (fun a b => f a = .ok b) l r
  | [], r => by rw [List.mapM_nil, pure_eq_ok, List.forall₂_nil_left_iff, eq_comm]
  | a :: l, r => by
    rw [List.mapM_cons, List.forall₂_cons_left_iff]
    simp only [bind_eq_ok, pure_eq_ok, mapM_eq_ok]
    constructor
    · rintro ⟨b, hb, t, ht, rfl⟩; exact ⟨b, t, hb, ht, rfl⟩
    · rintro ⟨b, t, hb, ht, rfl⟩; exact ⟨b, hb, t, ht, rfl⟩

/-- A list of computations returns if every one of them does. -/
theorem exists_mapM {f : α → Except ε β} {l : List α} (h : ∀ a ∈ l, ∃ b, f a = .ok b) : ∃ r, l.mapM f = .ok r := by
  induction l with
  | nil => exact ⟨[], rfl⟩
  | cons a l ih =>
    obtain ⟨b, hb⟩ := h a List.mem_cons_self
    obtain ⟨r, hr⟩ := ih fun x hx => h x (List.mem_cons_of_mem _ hx)
    exact ⟨b :: r, mapM_eq_ok.2 (.cons hb (mapM_eq_ok.1 hr))⟩

/-- The results of a list of computations are those that they return. -/
theorem mem_of_mapM_eq_ok {f : α → Except ε β} {l : List α} {r : List β} (h : l.mapM f = .ok r) (b : β) :
    b ∈ r ↔ ∃ a ∈ l, f a = .ok b := by
  induction mapM_eq_ok.1 h with
  | nil => simp
  | @cons a b' l r hab hl ih =>
    rw [List.mem_cons, ih (mapM_eq_ok.2 hl)]
    constructor
    · rintro (rfl | ⟨x, hx, hxb⟩)
      · exact ⟨a, List.mem_cons_self .., hab⟩
      · exact ⟨x, List.mem_cons_of_mem _ hx, hxb⟩
    · rintro ⟨x, hx, hxb⟩
      rcases List.mem_cons.1 hx with rfl | hx
      · rw [hab] at hxb; exact Or.inl (Except.ok.inj hxb).symm
      · exact Or.inr ⟨x, hx, hxb⟩

/-- Every one of a list of computations returns. -/
theorem returns_of_mapM_eq_ok {f : α → Except ε β} {l : List α} {r : List β} (h : l.mapM f = .ok r) :
    ∀ a ∈ l, ∃ b ∈ r, f a = .ok b := by
  induction mapM_eq_ok.1 h with
  | nil => simp
  | @cons a b l r hab hl ih =>
    intro x hx
    rcases List.mem_cons.1 hx with rfl | hx
    · exact ⟨b, List.mem_cons_self .., hab⟩
    · obtain ⟨y, hy, hxy⟩ := ih (mapM_eq_ok.2 hl) x hx
      exact ⟨y, List.mem_cons_of_mem _ hy, hxy⟩

/-- The results that a list of computations returns besides nothing. -/
theorem filterMapM_eq_ok {f : α → Except ε (Option β)} : ∀ {l : List α} {r : List β},
    l.filterMapM f = .ok r ↔ ∃ os, l.mapM f = .ok os ∧ r = os.reduceOption
  | [], r => by
    rw [List.filterMapM_nil, pure_eq_ok, List.mapM_nil]
    constructor
    · rintro rfl; exact ⟨[], rfl, rfl⟩
    · rintro ⟨os, hos, rfl⟩; rw [← pure_eq_ok.1 hos]; rfl
  | a :: l, r => by
    rw [List.filterMapM_cons, List.mapM_cons]
    simp only [bind_eq_ok]
    constructor
    · rintro ⟨o, ho, h⟩
      cases o with
      | none =>
        obtain ⟨os, hos, rfl⟩ := filterMapM_eq_ok.1 h
        exact ⟨none :: os, ⟨none, ho, os, hos, rfl⟩, by simp⟩
      | some b =>
        obtain ⟨t, ht, hr⟩ := bind_eq_ok.1 h
        obtain ⟨os, hos, rfl⟩ := filterMapM_eq_ok.1 ht
        exact ⟨some b :: os, ⟨some b, ho, os, hos, rfl⟩, by rw [← pure_eq_ok.1 hr]; simp⟩
    · rintro ⟨_, ⟨o, ho, os, hos, h⟩, rfl⟩
      obtain rfl := pure_eq_ok.1 h
      refine ⟨o, ho, ?_⟩
      have hl : l.filterMapM f = .ok os.reduceOption := filterMapM_eq_ok.2 ⟨os, hos, rfl⟩
      cases o with
      | none => simpa using hl
      | some b => simp only [hl]; rfl

end Assay
