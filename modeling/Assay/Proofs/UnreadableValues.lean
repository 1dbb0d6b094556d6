import Assay.Proofs.Normalization

/-!
# Values that cannot be read

A loosely typed value is read as a text, an integer, a category or a severity, and what does not fit is passed over
or reported. Three kinds of values end the reading instead: an integer with more digits than can be written, where a
text is wanted of it; an infinite number, where an integer is wanted; and a word for a severity that looks like digits
and is no number. `EscapesIff` says of a computation exactly when it ends so, and how computations compose.
-/

namespace Assay

/-! ## Computations that end in other faults -/

/-- Whether a computation ends in a fault that lists no problems of a corpus. -/
def Escapes {α : Type} (x : Except Fault α) : Prop := ∃ f, x = .error f ∧ ∀ ps, f ≠ .corpus ps

/-- A computation ends in such a fault if something is the case, and returns otherwise. -/
structure EscapesIff {α : Type} (x : Except Fault α) (P : Prop) : Prop where
  escapes : P → Escapes x
  returns : ¬ P → ∃ a, x = .ok a

section
variable {α β : Type} {x : Except Fault α} {g : α → Except Fault β} {P Q : Prop}

theorem EscapesIff.congr (h : EscapesIff x P) (hPQ : P ↔ Q) : EscapesIff x Q :=
  ⟨fun hQ => h.escapes (hPQ.2 hQ), fun hQ => h.returns (mt hPQ.1 hQ)⟩

theorem EscapesIff.ok {a : α} (h : ¬ P) : EscapesIff (.ok a : Except Fault α) P :=
  ⟨fun hP => absurd hP h, fun _ => ⟨a, rfl⟩⟩

/-- A computation of two steps: the first one escapes, or it returns and the second one does. -/
theorem EscapesIff.bind (hx : EscapesIff x P) (hg : ∀ a, x = .ok a → EscapesIff (g a) Q) :
    EscapesIff (x >>= g) (P ∨ Q) := by
  by_cases hP : P
  · obtain ⟨f, hf, hne⟩ := hx.escapes hP
    refine ⟨fun _ => ⟨f, bind_eq_error.2 (.inl hf), hne⟩, fun hPQ => absurd (.inl hP) hPQ⟩
  · obtain ⟨a, ha⟩ := hx.returns hP
    refine ⟨fun hPQ => ?_, fun hPQ => ?_⟩
    · obtain ⟨f, hf, hne⟩ := (hg a ha).escapes (hPQ.resolve_left hP)
      exact ⟨f, bind_eq_error.2 (.inr ⟨a, ha, hf⟩), hne⟩
    · obtain ⟨b, hb⟩ := (hg a ha).returns fun hQ => hPQ (.inr hQ)
      exact ⟨b, bind_eq_ok.2 ⟨a, ha, hb⟩⟩

/-- A computation of two steps, the second of which returns. -/
theorem EscapesIff.bind_ok (hx : EscapesIff x P) (hg : ∀ a, x = .ok a → ∃ b, g a = .ok b) :
    EscapesIff (x >>= g) P := by
  refine (hx.bind (Q := False) fun a ha => ?_).congr (or_iff_left not_false)
  obtain ⟨b, hb⟩ := hg a ha
  rw [hb]
  exact .ok not_false

theorem EscapesIff.map {f : α → β} (h : EscapesIff x P) : EscapesIff (x.map f) P := by
  refine ⟨fun hP => ?_, fun hP => ?_⟩
  · obtain ⟨e, rfl, hne⟩ := h.escapes hP
    exact ⟨e, rfl, hne⟩
  · obtain ⟨a, rfl⟩ := h.returns hP
    exact ⟨f a, rfl⟩

/-- A computation with errors of its own, each of which becomes such a fault. -/
theorem EscapesIff.mapError {ε : Type} {y : Except ε α} {f : ε → Fault} (hf : ∀ e ps, f e ≠ .corpus ps)
    (h : (∃ a, y = .ok a) ↔ ¬ P) : EscapesIff (y.mapError f) P := by
  refine ⟨fun hP => ?_, fun hP => ?_⟩
  · cases y with
    | ok a => exact absurd hP (h.1 ⟨a, rfl⟩)
    | error e => exact ⟨_, rfl, hf e⟩
  · obtain ⟨a, rfl⟩ := h.2 hP
    exact ⟨a, rfl⟩

theorem EscapesIff.numeral {y : Except NumeralError α} (h : (∃ a, y = .ok a) ↔ ¬ P) :
    EscapesIff (y.mapError .numeral) P := .mapError (by simp) h

/-- A list of computations escapes if one of them does. -/
theorem EscapesIff.mapM {f : α → Except Fault β} {R : α → Prop} {l : List α} (h : ∀ a ∈ l, EscapesIff (f a) (R a)) :
    EscapesIff (l.mapM f) (∃ a ∈ l, R a) := by
  induction l with
  | nil => exact .ok (by simp)
  | cons a l ih =>
    rw [List.mapM_cons]
    have hrest := ih fun b hb => h b (List.mem_cons_of_mem a hb)
    refine ((h a List.mem_cons_self).bind fun b _ => hrest.bind_ok fun bs _ => ⟨_, rfl⟩).congr ?_
    simp

end

/-! ## Values -/

namespace Numeral

end Numeral

namespace Value

/-- A number without bound. -/
def IsInfinite (v : Value) : Prop := ∃ x negative, v = .float x ∧ Binary64.magnitude x = .infinite negative

theorem truncate?_eq_none_iff {x : Float} :
    Binary64.truncate? x = none ∧ Binary64.isUndefined x = false ↔ ∃ b, Binary64.magnitude x = .infinite b := by
  unfold Binary64.truncate? Binary64.ratio? Binary64.isUndefined
  cases Binary64.magnitude x <;> simp

theorem toInt_eq_tooLarge {v : Value} : v.toInt = .error .tooLarge ↔ v.IsInfinite := by
  have read : ∀ {α : Type} {x : Except NumeralError α}, x.mapError Fault.numeral ≠ .error .tooLarge := by
    intro α x h
    cases x <;> cases h
  cases v with
  | float x =>
    have hinfinite : (Value.float x).IsInfinite ↔ ∃ b, Binary64.magnitude x = .infinite b := by simp [IsInfinite]
    rw [hinfinite, ← truncate?_eq_none_iff, toInt]
    cases Binary64.truncate? x with
    | some n => simp
    | none => cases Binary64.isUndefined x <;> simp
  | text s => exact ⟨fun h => absurd h read, fun ⟨_, _, h, _⟩ => (nomatch h)⟩
  | bytes bs => exact ⟨fun h => absurd h read, fun ⟨_, _, h, _⟩ => (nomatch h)⟩
  | _ => exact ⟨nofun, fun ⟨_, _, h, _⟩ => (nomatch h)⟩

end Value

namespace Category

end Category

namespace Severity

end Severity

end Assay
