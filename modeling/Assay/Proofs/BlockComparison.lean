import Assay.Proofs.Decoding
import Assay.Proofs.ReportedDifferences

/-!
# What makes a category regress

A threshold is read as its exact value or as the decimal that it is written as (`Quantity.Reads`). Two blocks of
metrics are set against each other through the fields that are picked from them, whatever the order of the
fields and whatever other fields there are. What comes out depends on the recall and on the matches of both
(`Delta.regressed_iff`).
-/

namespace Assay

open Binary64

/-! ## Thresholds -/

namespace Value.Quantity

/-- The numbers that a threshold is read as: its exact value, and the decimal that it is written as. -/
inductive Reads : Quantity → ℚ → Prop
  | whole (n : ℤ) : Reads (.whole n) n
  | ratio {x : Float} {a : ℤ} {d : ℕ} : ratio? x = some (a, d) → Reads (.binary x) (a / d)
  | decimal {x : Float} {d : Decimal} : Decimal.ofFloat? x = some d → Reads (.binary x) d.value

section
variable {t : Quantity} {x y : Float} {q : ℚ}

theorem isFinite_of_ratio {r : ℤ × ℕ} (h : ratio? x = some r) : (parts x).isFinite = true := by
  rw [ratio?] at h
  split at h
  next hfinite => exact isFinite_iff.2 ⟨_, _, _, hfinite⟩
  · cases h

theorem isFinite_of_ofFloat {d : Decimal} (h : Decimal.ofFloat? x = some d) : (parts x).isFinite = true := by
  rw [Decimal.ofFloat?] at h
  split at h
  next hfinite => exact isFinite_iff.2 ⟨_, _, _, hfinite⟩
  · cases h

/-- A finite threshold that is not less than zero has a value that is not negative. -/
theorem value_nonneg (hx : (parts x).isFinite = true) (ht : (binary x).less (.whole 0) = false) : 0 ≤ value x := by
  refine not_lt.1 fun hlt => ?_
  rw [less, compareInt_eq 0 hx, compare_gt_iff_gt.2 (by exact_mod_cast hlt)] at ht
  cases ht

/-- What a threshold is read as is off from its value by little. -/
theorem Reads.within (h : (binary x).Reads q) :
    (parts x).isFinite = true ∧ |q - value x| ≤ |value x| / 2 ^ 52 + 1 / 2 ^ 60 := by
  cases h with
  | @ratio _ a d h =>
    have hx := isFinite_of_ratio h
    obtain ⟨a', d', h', -, hvalue⟩ := exists_ratio hx
    obtain ⟨rfl, rfl⟩ := Prod.mk.inj (Option.some.inj (h.symm.trans h'))
    refine ⟨hx, ?_⟩
    rw [← hvalue, sub_self, abs_zero]
    positivity
  | @decimal _ d h =>
    have hx := isFinite_of_ofFloat h
    obtain ⟨d', h', hwithin⟩ := Decimal.ofFloat_within hx
    obtain rfl := Option.some.inj (h.symm.trans h')
    exact ⟨hx, hwithin⟩

/-- What a threshold is read as is not below zero by more than a trifle. -/
theorem Reads.nonneg (h : t.Reads q) (ht : t.less (.whole 0) = false) : -1 / 2 ^ 50 ≤ q := by
  cases t with
  | whole n =>
    cases h
    have hn : (0 : ℚ) ≤ n := by exact_mod_cast not_lt.1 (of_decide_eq_false ht)
    linarith
  | binary x =>
    obtain ⟨hx, hwithin⟩ := h.within
    have hnonneg := value_nonneg hx ht
    rw [abs_of_nonneg hnonneg] at hwithin
    linarith [(abs_le.1 hwithin).1]

/-- A double that is greater than what a threshold is read as exceeds the threshold. -/
theorem less_of_reads (h : t.Reads q) (ht : t.less (.whole 0) = false) (hy : (parts y).isFinite = true) (hq : q ≤ 1)
    (hlt : q + 1 / 2 ^ 50 < value y) : t.less (.binary y) = true := by
  cases t with
  | whole n =>
    cases h
    rw [less, compareInt_eq n hy, compare_lt_iff_lt.2 (by linarith)]
    rfl
  | binary x =>
    obtain ⟨hx, hwithin⟩ := h.within
    rw [abs_of_nonneg (value_nonneg hx ht)] at hwithin
    exact decide_eq_true ((lt_iff_value hx hy).2 (by linarith [(abs_le.1 hwithin).1]))

/-- A double that is not positive exceeds no threshold. -/
theorem not_less_of_nonpos (ht : t.less (.whole 0) = false) (hy : (parts y).isFinite = true) (hle : value y ≤ 0) :
    t.less (.binary y) = false := by
  cases t with
  | whole n =>
    have hn : 0 ≤ n := not_lt.1 (of_decide_eq_false ht)
    rw [less, compareInt_eq n hy]
    refine beq_eq_false_iff_ne.2 fun h => ?_
    have hlt := compare_lt_iff_lt.1 (Option.some.inj h)
    have hn' : (0 : ℚ) ≤ n := by exact_mod_cast hn
    linarith
  | binary x =>
    refine decide_eq_false fun hlt => ?_
    by_cases hx : (parts x).isFinite = true
    · have hvalue := (lt_iff_value hx hy).1 hlt
      have hnonneg := value_nonneg hx ht
      linarith
    -- What is no finite number is less than none, or is the infinity that is less than zero.
    · rw [lt_iff] at hlt
      cases hu : parts x with
      | notANumber => rw [hu] at hlt; cases hlt
      | infinity s =>
        cases s with
        | positive =>
          rw [hu] at hlt
          cases hv : parts y with
          | zero s' => rw [hv] at hlt; cases hlt
          | finite s' m e hm => rw [hv] at hlt; cases hlt
          | _ => rw [hv] at hy; cases hy
        | negative =>
          rw [less, compareInt, magnitude_eq, hu] at ht
          cases ht
      | zero s => exact hx (hu ▸ rfl)
      | finite s m e hm => exact hx (hu ▸ rfl)

end

end Value.Quantity

/-! ## Blocks -/

namespace Delta

/-- A value that shows a block, in some order and perhaps with other fields, or null if there is none. -/
def Shows (v : Value) : Option Block → Prop
  | some b => ∃ others, v.Reordered (.record (b.fields ++ others)) ∧ ((b.fields ++ others).map (·.1)).Nodup
  | none => v = .null

/-- The fields of a block that are compared. -/
def picked (o : Option Block) : List (String × Value) := [
  ("tp", .ofOption (fun b => .int b.tally.matched) o),
  ("fp", .ofOption (fun b => .int b.tally.spurious) o),
  ("fn", .ofOption (fun b => .int b.tally.missed) o),
  ("precision", .ofOption (fun b => .float b.precision.toFloat) o),
  ("recall", .ofOption (fun s => .float s.toFloat) (o.bind (·.recallRate))),
  ("f1", .ofOption (fun b => .float b.f1.toFloat) o)]

section
variable {v w : Value} {o o' : Option Block}

/-- What is picked from a block does not depend on the order of its fields or on other fields. -/
theorem pick_eq (h : Shows v o) : pick v = .ok (picked o) := by
  cases o with
  | none =>
    cases h
    rfl
  | some b =>
    obtain ⟨others, hv, hnodup⟩ := h
    have hget : ∀ f ∈ b.fields, (v.get f.1).Reordered f.2 := fun f hf =>
      (hv.fields hnodup).2 f (List.mem_append_left _ hf)
    have hfields := hv.fieldsOrEmpty (by simp [Block.fields]) hnodup
    simp only [Block.fields, List.forall_mem_cons, Value.reordered_int, Value.reordered_float] at hget
    obtain ⟨htp, hfp, hfn, -, hprecision, hrecall, hf1, -⟩ := hget
    have hrecall := (Value.reordered_ofOption (f := fun s : Score => .float s.toFloat) fun _ => trivial).1 hrecall
    rw [pick, hfields]
    show Except.ok ((countNames ++ ratioNames).map fun name => (name, v.get name)) = _
    simp [countNames, ratioNames, picked, Value.ofOption, htp, hfp, hfn, hprecision, hrecall, hf1]

/-- The number of matches of a block, zero if there is none. -/
def matchesOf (o : Option Block) : ℕ := (o.map (·.tally.matched)).getD 0

/-- The recall of a block, if there is a block that has one. -/
def recallOf (o : Option Block) : Option Score := o.bind (·.recallRate)

theorem orElse_count (f : Block → ℕ) (o : Option Block) :
    (Value.ofOption (fun b => .int (f b)) o).orElse (.int 0) = .int ((o.map f).getD 0 : ℕ) := by
  cases o with
  | none => rfl
  | some b =>
    by_cases h : f b = 0
    · simp [Value.ofOption, Value.orElse, Value.isTruthy, Value.unfold, h]
    · simp [Value.ofOption, Value.orElse, Value.isTruthy, Value.unfold, h]

theorem matches_picked (o : Option Block) : (field (picked o) "tp").intOrZero = .ok (matchesOf o : ℤ) := by
  cases o with
  | none => rfl
  | some b => exact Value.intOrZero_int _

/-- Whether a drop in recall is too large. -/
def Drops (t : Value.Quantity) (s s' : Option Score) : Prop :=
  ∃ x, between (.ofOption (fun s => .float s.toFloat) s) (.ofOption (fun s => .float s.toFloat) s') = .ok (some x) ∧
    t.less (.binary (-x)) = true

theorem ofRecall_ne_nil {t : Value.Quantity} {r : Option Float} {dropped : List Regression}
    (h : ofRecall t r = .ok dropped) : dropped ≠ [] ↔ ∃ x, r = some x ∧ t.less (.binary (-x)) = true := by
  cases r with
  | none =>
    obtain rfl := Except.ok.inj h
    simp
  | some x =>
    rw [ofRecall] at h
    split at h
    next hless =>
      split at h
      · obtain rfl := Except.ok.inj h
        simp [hless]
      · cases h
    next hless =>
      obtain rfl := Except.ok.inj h
      simp [hless]

/-- Three names, each with what is found for it. -/
theorem mapM_three_eq_ok {α : Type} {f : String → Except Fault α} {a b c : String} {l : List (String × α)} :
    ([a, b, c].mapM fun name => do return (name, ← f name)) = .ok l ↔
      ∃ x y z, f a = .ok x ∧ f b = .ok y ∧ f c = .ok z ∧ l = [(a, x), (b, y), (c, z)] := by
  simp only [List.mapM_cons, List.mapM_nil, bind_eq_ok, pure_eq_ok]
  constructor
  · rintro ⟨_, ⟨x, hx, rfl⟩, _, ⟨_, ⟨y, hy, rfl⟩, _, ⟨_, ⟨z, hz, rfl⟩, _, rfl, rfl⟩, rfl⟩, rfl⟩
    exact ⟨x, y, z, hx, hy, hz, rfl⟩
  · rintro ⟨x, y, z, hx, hy, hz, rfl⟩
    exact ⟨_, ⟨x, hx, rfl⟩, _, ⟨_, ⟨y, hy, rfl⟩, _, ⟨_, ⟨z, hz, rfl⟩, _, rfl, rfl⟩, rfl⟩, rfl⟩

/-- The differences of the fields of two blocks. -/
theorem betweenAll_eq_ok {deltas : List (String × Option Float)} : betweenAll (picked o) (picked o') = .ok deltas ↔
    ∃ tp fp missed precision recalled f1,
      between (.int (matchesOf o)) (.int (matchesOf o')) = .ok tp ∧
      between (.int ((o.map (·.tally.spurious)).getD 0 : ℕ)) (.int ((o'.map (·.tally.spurious)).getD 0 : ℕ)) = .ok fp ∧
      between (.int ((o.map (·.tally.missed)).getD 0 : ℕ)) (.int ((o'.map (·.tally.missed)).getD 0 : ℕ)) = .ok missed ∧
      between (.ofOption (fun b => .float b.precision.toFloat) o) (.ofOption (fun b => .float b.precision.toFloat) o') =
        .ok precision ∧
      between (.ofOption (fun s => .float s.toFloat) (recallOf o)) (.ofOption (fun s => .float s.toFloat) (recallOf o')) =
        .ok recalled ∧
      between (.ofOption (fun b => .float b.f1.toFloat) o) (.ofOption (fun b => .float b.f1.toFloat) o') = .ok f1 ∧
      deltas = [("tp", tp), ("fp", fp), ("fn", missed), ("precision", precision), ("recall", recalled), ("f1", f1)] := by
  have hcounts : ∀ o : Option Block,
      (field (picked o) "tp").orElse (.int 0) = .int (matchesOf o) ∧
      (field (picked o) "fp").orElse (.int 0) = .int ((o.map (·.tally.spurious)).getD 0 : ℕ) ∧
      (field (picked o) "fn").orElse (.int 0) = .int ((o.map (·.tally.missed)).getD 0 : ℕ) :=
    fun o => ⟨orElse_count _ o, orElse_count _ o, orElse_count _ o⟩
  simp only [betweenAll, countNames, ratioNames, mapM_three_eq_ok, bind_eq_ok, pure_eq_ok, hcounts]
  constructor
  · rintro ⟨_, ⟨tp, fp, missed, htp, hfp, hmissed, rfl⟩, _, ⟨precision, recalled, f1, hprecision, hrecalled, hf1, rfl⟩, rfl⟩
    exact ⟨tp, fp, missed, precision, recalled, f1, htp, hfp, hmissed, hprecision, hrecalled, hf1, rfl⟩
  · rintro ⟨tp, fp, missed, precision, recalled, f1, htp, hfp, hmissed, hprecision, hrecalled, hf1, rfl⟩
    exact ⟨_, ⟨tp, fp, missed, htp, hfp, hmissed, rfl⟩, _, ⟨precision, recalled, f1, hprecision, hrecalled, hf1, rfl⟩, rfl⟩

/-- **Regression.** A category regresses if its recall drops by too much, or if all its matches are lost. -/
theorem regressed_iff {t : Value.Quantity} {name : String} {d : Delta} (hv : Shows v o) (hw : Shows w o')
    (h : ofBlocks t name v w = .ok d) :
    d.category = name ∧
      (d.regressed = true ↔ Drops t (recallOf o) (recallOf o') ∨ 0 < matchesOf o ∧ matchesOf o' = 0) := by
  simp only [ofBlocks, pick_eq hv, pick_eq hw, bind_eq_ok, pure_eq_ok, Except.ok.injEq, exists_eq_left',
    matches_picked] at h
  obtain ⟨deltas, hdeltas, dropped, hdropped, rfl⟩ := h
  obtain ⟨tp, fp, missed, precision, recalled, f1, -, -, -, -, hrecalled, -, rfl⟩ := betweenAll_eq_ok.1 hdeltas
  have hnil := ofRecall_ne_nil hdropped
  have hregressed : ∀ before after : ℕ,
      (!(dropped ++ ofMatches before after).isEmpty) = true ↔ dropped ≠ [] ∨ 0 < before ∧ after = 0 := by
    intro before after
    rw [ofMatches]
    by_cases hlost : 0 < before ∧ after = 0
    · simp [hlost]
    · simp [hlost]
  refine ⟨rfl, (hregressed _ _).trans (or_congr_left (hnil.trans ?_))⟩
  exact exists_congr fun x => and_congr_left' ⟨fun hx => hrecalled.trans (congrArg _ hx), fun hx =>
    Except.ok.inj (hrecalled.symm.trans hx)⟩

/-- A block with counts and scores that reports can have. -/
structure IsOrdinary (b : Block) : Prop where
  matched : b.tally.matched < 2 ^ 63
  spurious : b.tally.spurious < 2 ^ 63
  missed : b.tally.missed < 2 ^ 63
  precision : b.precision.units ≤ 10000
  recalled : ∀ s, b.recallRate = some s → s.units ≤ 10000
  f1 : b.f1.units ≤ 10000

theorem exists_between {α : Type} (f : α → Score) {a a' : Option α} (ha : ∀ x ∈ a, (f x).units ≤ 10000)
    (ha' : ∀ x ∈ a', (f x).units ≤ 10000) :
    ∃ r, between (.ofOption (fun x => .float (f x).toFloat) a) (.ofOption (fun x => .float (f x).toFloat) a') = .ok r := by
  cases a with
  | none => exact ⟨none, by cases a' <;> rfl⟩
  | some x =>
    cases a' with
    | none => exact ⟨none, rfl⟩
    | some x' =>
      obtain ⟨y, hy, -⟩ := between_scores (ha x rfl) (ha' x' rfl)
      exact ⟨some y, hy⟩

/-- Ordinary blocks are compared. -/
theorem ofBlocks_returns {t : Value.Quantity} {x : Float} (name : String) (ht : t.toFloat? = some x) (hv : Shows v o)
    (hw : Shows w o') (ho : ∀ b ∈ o, IsOrdinary b) (ho' : ∀ b ∈ o', IsOrdinary b) :
    ∃ d, ofBlocks t name v w = .ok d := by
  have hcount : ∀ (f : Block → ℕ) {o : Option Block}, (∀ b ∈ o, f b < 2 ^ 63) → (o.map f).getD 0 < 2 ^ 63 := by
    intro f o h
    cases o with
    | none => exact Nat.two_pow_pos 63
    | some b => exact h b rfl
  have hrecalled : ∀ {o : Option Block}, (∀ b ∈ o, IsOrdinary b) → ∀ s ∈ recallOf o, s.units ≤ 10000 := by
    intro o h s hs
    obtain ⟨b, hb, hs⟩ := Option.bind_eq_some_iff.1 hs
    exact (h b hb).recalled s hs
  obtain ⟨tp, htp⟩ := between_counts (hcount _ fun b hb => (ho b hb).matched) (hcount _ fun b hb => (ho' b hb).matched)
  obtain ⟨fp, hfp⟩ := between_counts (hcount _ fun b hb => (ho b hb).spurious)
    (hcount _ fun b hb => (ho' b hb).spurious)
  obtain ⟨missed, hmissed⟩ := between_counts (hcount _ fun b hb => (ho b hb).missed)
    (hcount _ fun b hb => (ho' b hb).missed)
  obtain ⟨precision, hprecision⟩ := exists_between (·.precision) (fun b hb => (ho b hb).precision)
    fun b hb => (ho' b hb).precision
  obtain ⟨r, hr⟩ := exists_between id (hrecalled ho) (hrecalled ho')
  obtain ⟨f1, hf1⟩ := exists_between (·.f1) (fun b hb => (ho b hb).f1) fun b hb => (ho' b hb).f1
  have hdeltas := betweenAll_eq_ok.2 ⟨_, _, _, _, _, _, htp, hfp, hmissed, hprecision, hr, hf1, rfl⟩
  have hdropped : ∃ dropped, ofRecall t r = .ok dropped := by
    cases r with
    | none => exact ⟨[], rfl⟩
    | some y =>
      rw [ofRecall, ht]
      split
      · exact ⟨_, rfl⟩
      · exact ⟨_, rfl⟩
  obtain ⟨dropped, hdropped⟩ := hdropped
  simp only [ofBlocks, pick_eq hv, pick_eq hw, bind_eq_ok, pure_eq_ok, Except.ok.injEq, exists_eq_left', matches_picked]
  exact ⟨_, _, hdeltas, dropped, hdropped, rfl⟩

end

/-! ## Recall -/

section
variable {t : Value.Quantity} {s s' : Score} {r : Option Score} {q : ℚ}

/-- Without a recall on both sides there is no drop. -/
theorem not_drops_none : ¬ Drops t none r ∧ ¬ Drops t r none := by
  constructor
  · rintro ⟨x, hx, -⟩
    cases r <;> cases hx
  · rintro ⟨x, hx, -⟩
    cases r <;> cases hx

/-- A recall that does not fall does not drop. -/
theorem not_drops_of_le (ht : t.less (.whole 0) = false) (hs : s.units ≤ 10000) (hs' : s'.units ≤ 10000)
    (h : s.units ≤ s'.units) : ¬ Drops t (some s) (some s') := by
  rintro ⟨x, hx, hless⟩
  obtain ⟨y, hy, happrox⟩ := between_scores hs hs'
  obtain rfl : x = y := Option.some.inj (Except.ok.inj (hx.symm.trans hy))
  obtain ⟨hfinite, hvalue⟩ := value_neg happrox.finite
  have hnonneg : (0 : ℚ) ≤ ((s'.units : ℚ) - s.units) / 10 ^ 4 := by
    have hle : (s.units : ℚ) ≤ s'.units := by exact_mod_cast h
    exact div_nonneg (by linarith) (by norm_num)
  have herror := happrox.error
  rw [abs_of_nonneg hnonneg] at herror
  have hlow := (abs_le.1 herror).1
  have hpart : ((s'.units : ℚ) - s.units) / 10 ^ 4 / 2 ^ 52 ≤ ((s'.units : ℚ) - s.units) / 10 ^ 4 :=
    div_le_self hnonneg (by norm_num)
  rw [Value.Quantity.not_less_of_nonpos ht hfinite (by rw [hvalue]; linarith)] at hless
  cases hless

/-- A recall drops if its score falls by more than the threshold, be it little more. -/
theorem drops_of_reads (ht : t.less (.whole 0) = false) (hq : t.Reads q) (hs : s.units ≤ 10000) (hs' : s'.units ≤ 10000)
    (h : q + 1 / 2 ^ 48 ≤ ((s.units : ℚ) - s'.units) / 10 ^ 4) : Drops t (some s) (some s') := by
  obtain ⟨y, hy, happrox⟩ := between_scores hs hs'
  obtain ⟨hfinite, hvalue⟩ := value_neg happrox.finite
  have hmost : ((s.units : ℚ) - s'.units) / 10 ^ 4 ≤ 1 := by
    have hle : (s.units : ℚ) ≤ 10000 := by exact_mod_cast hs
    have hnonneg : (0 : ℚ) ≤ s'.units := Nat.cast_nonneg _
    linarith
  have hsize : |((s'.units : ℚ) - s.units) / 10 ^ 4| ≤ 1 := by
    have hle : (s'.units : ℚ) ≤ 10000 := by exact_mod_cast hs'
    have hnonneg : (0 : ℚ) ≤ s.units := Nat.cast_nonneg _
    exact abs_le.2 ⟨by linarith, by linarith⟩
  have hhigh := (abs_le.1 happrox.error).2
  refine ⟨y, hy, Value.Quantity.less_of_reads hq ht hfinite (by linarith) ?_⟩
  rw [hvalue]
  linarith

end

end Delta

end Assay
