import Assay.Proofs.StoredRuns
import Assay.Proofs.UnreadableValues

/-!
# Stored reports that cannot be read

A report is read from its document part by part, and what does not fit makes the stored run corrupt. One fault is not
taken for corruption: a number that is too large for its form, which is an infinite double where an integer is wanted,
or an integer beyond the doubles where a double is wanted. `OverflowsIff` says of a computation exactly when it ends in
that fault, and how computations compose; a part of a report overflows where the reading comes to such a number before
it comes to any other fault (`Report.Overflows`). So a stored run is read or named as corrupt exactly if its document
does not overflow (`RunStore.load_overflows_iff`).
-/

namespace Assay

/-! ## Computations that overflow -/

/-- A computation ends in a number that is too large exactly if something is the case, and every other fault of it is a
corruption. -/
structure OverflowsIff {α : Type} (x : Except Fault α) (P : Prop) : Prop where
  overflow : x = .error .tooLarge ↔ P
  corrupt : ∀ f, x = .error f → f ≠ .tooLarge → RunStore.isCorruption f = true

/-- Whether the reading of a list item by item comes to one of a kind: those before it are read. -/
def Meets {α β : Type} (read : α → Except Fault β) (P : α → Prop) : List α → Prop
  | [] => False
  | a :: rest => P a ∨ (∃ b, read a = .ok b) ∧ Meets read P rest

section
variable {α β : Type} {x : Except Fault α} {g : α → Except Fault β} {P Q : Prop}

theorem OverflowsIff.congr (h : OverflowsIff x P) (hPQ : P ↔ Q) : OverflowsIff x Q := ⟨h.overflow.trans hPQ, h.corrupt⟩

theorem OverflowsIff.ok {a : α} : OverflowsIff (.ok a : Except Fault α) False := ⟨⟨nofun, False.elim⟩, nofun⟩

theorem OverflowsIff.corruption {f : Fault} (h : RunStore.isCorruption f = true) :
    OverflowsIff (.error f : Except Fault α) False := by
  refine ⟨⟨fun hf => ?_, False.elim⟩, fun f' hf' _ => by cases hf'; exact h⟩
  cases hf
  exact absurd h (by decide)

/-- A computation of two steps: the first one overflows, or it returns and the second one does. -/
theorem OverflowsIff.bind {R : α → Prop} (hx : OverflowsIff x P) (hg : ∀ a, OverflowsIff (g a) (R a)) :
    OverflowsIff (x >>= g) (P ∨ ∃ a, x = .ok a ∧ R a) := by
  constructor
  · rw [bind_eq_error, hx.overflow]
    simp only [(hg _).overflow]
  · intro f hf hne
    rcases bind_eq_error.1 hf with h | ⟨a, ha, h⟩
    · exact hx.corrupt f h hne
    · exact (hg a).corrupt f h hne

/-- A computation of two steps, where what the first one returns is of no account for the second one. -/
theorem OverflowsIff.andThen (hx : OverflowsIff x P) (hg : ∀ a, OverflowsIff (g a) Q) :
    OverflowsIff (x >>= g) (P ∨ (∃ a, x = .ok a) ∧ Q) :=
  (hx.bind hg).congr (or_congr_right exists_and_right)

/-- A computation of two steps, the second of which does not overflow. -/
theorem OverflowsIff.bind_left (hx : OverflowsIff x P) (hg : ∀ a, OverflowsIff (g a) False) :
    OverflowsIff (x >>= g) P :=
  (hx.andThen hg).congr (by simp)

/-- A computation of two steps, the first of which does not overflow. -/
theorem OverflowsIff.bind_right {R : α → Prop} (hx : OverflowsIff x False) (hg : ∀ a, OverflowsIff (g a) (R a)) :
    OverflowsIff (x >>= g) (∃ a, x = .ok a ∧ R a) :=
  (hx.bind hg).congr (by simp)

theorem OverflowsIff.map {f : α → β} (h : OverflowsIff x P) : OverflowsIff (x.map f) P := by
  cases x with
  | ok a => exact OverflowsIff.ok.congr (by simpa using h.overflow)
  | error e =>
    refine ⟨?_, fun e' he' hne => ?_⟩
    · rw [← h.overflow]
      exact ⟨fun he => by cases he; rfl, fun he => by cases he; rfl⟩
    · cases he'
      exact h.corrupt e rfl hne

/-- A list of computations overflows where the first one that does not return does. -/
theorem OverflowsIff.mapM {f : α → Except Fault β} {R : α → Prop} (h : ∀ a, OverflowsIff (f a) (R a)) (l : List α) :
    OverflowsIff (l.mapM f) (Meets f R l) := by
  induction l with
  | nil => exact .ok
  | cons a l ih =>
    rw [List.mapM_cons]
    exact (h a).andThen fun b => ih.bind_left fun bs => .ok

theorem not_meets {read : α → Except Fault β} {R : α → Prop} (h : ∀ a, ¬ R a) (l : List α) : ¬ Meets read R l := by
  induction l with
  | nil => exact id
  | cons a l ih => exact fun hl => hl.elim (h a) fun hrest => ih hrest.2

theorem OverflowsIff.mapError {ε : Type} {y : Except ε α} {f : ε → Fault}
    (h : ∀ e, RunStore.isCorruption (f e) = true) : OverflowsIff (y.mapError f) False := by
  cases y with
  | ok a => exact .ok
  | error e => exact .corruption (h e)

end

/-! ## Values -/

namespace Value

/-- An integer beyond the doubles. -/
def IsVast (v : Value) : Prop := ∃ n, v = .int n ∧ Binary64.ofInt? n = none

section
variable {α : Type} {v : Value} {key : String} {P : Prop}

theorem get_eq_null_of_not_isMap (h : v.isMap = false) (key : String) : v.get key = .null := by
  have hnone : v.entries? = none := by simpa [isMap] using h
  simp [get, get?, hnone]

theorem get_eq_null_of_not_isTruthy (h : v.isTruthy = false) (key : String) : v.get key = .null := by
  rw [get, get?, entries?]
  unfold isTruthy at h
  cases hv : v.unfold <;> simp_all [lookupText?]

theorem overflowsIff_toInt : OverflowsIff v.toInt v.IsInfinite := by
  refine ⟨toInt_eq_tooLarge, fun f hf hne => ?_⟩
  cases v with
  | float x =>
    rw [toInt] at hf
    split at hf
    · cases hf
    · split at hf
      · cases hf
        rfl
      · cases hf
        exact absurd rfl hne
  | text s => exact (OverflowsIff.mapError fun _ => rfl).corrupt f hf hne
  | bytes bs => exact (OverflowsIff.mapError fun _ => rfl).corrupt f hf hne
  | bool b => cases hf
  | int n => cases hf
  | _ =>
    cases hf
    rfl

theorem overflowsIff_toFloat : OverflowsIff v.toFloat v.IsVast := by
  have hnot (h : ∀ n, v ≠ .int n) : v.IsVast ↔ False := iff_of_false (fun ⟨n, hn, _⟩ => h n hn) not_false
  cases v with
  | int n =>
    rw [toFloat]
    cases hn : Binary64.ofInt? n with
    | some x => exact OverflowsIff.ok.congr (by simp [IsVast, hn])
    | none => exact ⟨iff_of_true rfl ⟨n, rfl, hn⟩, fun f hf hne => by cases hf; exact absurd rfl hne⟩
  | bool b => exact OverflowsIff.ok.congr (hnot (by simp)).symm
  | float x => exact OverflowsIff.ok.congr (hnot (by simp)).symm
  | text s => exact (OverflowsIff.mapError fun _ => rfl).congr (hnot (by simp)).symm
  | bytes bs => exact (OverflowsIff.mapError fun _ => rfl).congr (hnot (by simp)).symm
  | _ => exact (OverflowsIff.corruption rfl).congr (hnot (by simp)).symm

theorem isTruthy_of_isInfinite (h : v.IsInfinite) : v.isTruthy = true := by
  obtain ⟨x, negative, rfl, hx⟩ := h
  rw [Binary64.magnitude_eq] at hx
  have heq : (x == 0) = ((Binary64.parts x).compare (Binary64.parts 0) == some .eq) := rfl
  suffices hne : (x == 0) = false by simp [isTruthy, unfold, bne, hne]
  rw [heq, Binary64.parts_zero]
  cases hparts : Binary64.parts x with
  | infinity sign => cases sign <;> rfl
  | _ =>
    rw [hparts] at hx
    cases hx

theorem isTruthy_of_isVast (h : v.IsVast) : v.isTruthy = true := by
  obtain ⟨n, rfl, hn⟩ := h
  have hne : n ≠ 0 := by
    rintro rfl
    exact absurd hn (by decide)
  simpa [isTruthy, unfold] using hne

theorem overflowsIff_intOrZero : OverflowsIff v.intOrZero v.IsInfinite := by
  rw [intOrZero]
  split
  next => exact overflowsIff_toInt
  next h => exact OverflowsIff.ok.congr (iff_of_false not_false fun hv => h (isTruthy_of_isInfinite hv))

theorem overflowsIff_lenientInt : OverflowsIff v.lenientInt v.IsInfinite := by
  have hnot {w : Value} (h : ∀ x, w ≠ .float x) : w.IsInfinite ↔ False :=
    iff_of_false (fun ⟨x, _, hx, _⟩ => h x hx) not_false
  unfold lenientInt
  split
  · exact OverflowsIff.ok.congr (hnot (by simp)).symm
  · exact OverflowsIff.ok.congr (hnot (by simp)).symm
  · split
    next n h =>
      exact OverflowsIff.ok.congr (iff_of_false not_false fun hv => nomatch h.symm.trans (toInt_eq_tooLarge.2 hv))
    next h => exact ⟨iff_of_true rfl (toInt_eq_tooLarge.1 h), fun f hf hne => by cases hf; exact absurd rfl hne⟩
    next f hne h =>
      refine OverflowsIff.ok.congr (iff_of_false not_false fun hv => hne ?_)
      exact Except.error.inj (h.symm.trans (toInt_eq_tooLarge.2 hv))

theorem overflowsIff_items : OverflowsIff v.items False := by
  unfold items
  split
  case h_7 => exact .corruption rfl
  all_goals exact .ok

theorem overflowsIff_itemsOrNone : OverflowsIff v.itemsOrNone False := by
  rw [itemsOrNone]
  split
  · exact overflowsIff_items
  · exact .ok

theorem overflowsIff_pairsOf (index : ℕ) (vs : List Value) : OverflowsIff (pairsOf index vs) False := by
  induction vs generalizing index with
  | nil => exact .ok
  | cons v rest ih =>
    rw [pairsOf]
    refine overflowsIff_items.bind_left fun parts => ?_
    split
    · split
      · exact (ih (index + 1)).bind_left fun es => .ok
      · exact .corruption rfl
    · exact .corruption rfl

theorem overflowsIff_toMapping : OverflowsIff v.toMapping False := by
  unfold toMapping
  split
  · exact .ok
  · split
    · exact .ok
    · exact overflowsIff_items.bind_left fun vs => (overflowsIff_pairsOf 0 vs).bind_left fun es => .ok

/-- What is read from the fields of a value; a value without fields has none that overflows. -/
theorem overflowsIff_requireFields {f : Value → Except Fault α} (hf : OverflowsIff (f v) P)
    (hP : (∀ key, v.get key = .null) → ¬ P) : OverflowsIff (v.requireFields >>= f) P := by
  rw [requireFields]
  cases hmap : v.isMap with
  | true => exact hf
  | false => exact (OverflowsIff.corruption rfl).congr (iff_of_false not_false (hP (get_eq_null_of_not_isMap hmap)))

/-- The same where a value that does not count as given stands for no fields. -/
theorem overflowsIff_fieldsOrEmpty {f : Value → Except Fault α} {R : Value → Prop} (hf : ∀ w, OverflowsIff (f w) (R w))
    (hR : ∀ w, (∀ key, w.get key = .null) → ¬ R w) : OverflowsIff (v.fieldsOrEmpty >>= f) (R v) := by
  rw [fieldsOrEmpty]
  split
  next => exact overflowsIff_requireFields (hf v) (hR v)
  next h =>
    have hempty := hR v (get_eq_null_of_not_isTruthy (Bool.eq_false_iff.2 h))
    exact (hf (.map [])).congr (iff_of_false (hR _ fun _ => rfl) hempty)

theorem not_isInfinite_null : ¬ Value.null.IsInfinite := fun ⟨_, _, h, _⟩ => nomatch h

theorem not_isVast_null : ¬ Value.null.IsVast := fun ⟨_, h, _⟩ => nomatch h

end

end Value

/-! ## Parts of a report -/

section
variable {v : Value}

theorem Severity.overflowsIff_ofValueOrMedium : OverflowsIff (ofValueOrMedium v) False :=
  (OverflowsIff.mapError fun _ => rfl).map

/-- A finding of a tool that overflows: its line or its column is without bound. -/
@[mk_iff]
inductive ToolFinding.Overflows (v : Value) : Prop
  | line (infinite : (v.get "line").IsInfinite)
  | column (line : ∃ n, (v.get "line").lenientInt = .ok n) (infinite : (v.get "column").IsInfinite)

theorem ToolFinding.not_overflows (h : ∀ key, v.get key = .null) : ¬ Overflows v := by
  rintro (hv | ⟨-, hv⟩) <;> exact Value.not_isInfinite_null (h _ ▸ hv)

theorem ToolFinding.overflowsIff_ofValue (v : Value) : OverflowsIff (ofValue v) (Overflows v) := by
  refine Value.overflowsIff_requireFields ?_ not_overflows
  refine (Value.overflowsIff_lenientInt.andThen fun line => ?_).congr (overflows_iff v).symm
  exact Value.overflowsIff_lenientInt.bind_left fun column => .ok

/-- A confidence that overflows. -/
def Classification.Overflows (v : Value) : Prop := (v.get "confidence").IsVast

theorem Classification.overflowsIff_ofValue (v : Value) : OverflowsIff (ofValue v) (Overflows v) := by
  refine Value.overflowsIff_requireFields ?_ fun h hv => Value.not_isVast_null (h "confidence" ▸ hv)
  dsimp only
  split
  next => exact Value.overflowsIff_toFloat.bind_left fun confidence => .ok
  next h => exact OverflowsIff.ok.congr (iff_of_false not_false fun hv => h (Value.isTruthy_of_isVast hv))

/-- The classifications that a finding lists. -/
def Finding.classificationsOf (v : Value) : Except Fault (List Classification) := do
  let listed ← (v.get "categories").itemsOrNone
  (listed.filter Value.isMap).mapM Classification.ofValue

/-- What a tool said of a finding. -/
def Finding.rawOf (v : Value) : Except Fault ToolFinding := do ToolFinding.ofValue (← (v.get "raw").fieldsOrEmpty)

/-- A finding that overflows: a confidence, what the tool said, the index or the line, whichever is read first. -/
@[mk_iff]
inductive Finding.Overflows (v : Value) : Prop
  | confidence {listed : List Value} (items : (v.get "categories").itemsOrNone = .ok listed)
      (vast : Meets Classification.ofValue Classification.Overflows (listed.filter Value.isMap))
  | raw (categories : ∃ cs, classificationsOf v = .ok cs) (overflows : ToolFinding.Overflows (v.get "raw"))
  | index (categories : ∃ cs, classificationsOf v = .ok cs) (raw : ∃ r, rawOf v = .ok r)
      (infinite : (v.get "index").IsInfinite)
  | line (categories : ∃ cs, classificationsOf v = .ok cs) (raw : ∃ r, rawOf v = .ok r)
      (index : ∃ n, (v.get "index").intOrZero = .ok n) (infinite : (v.get "line").IsInfinite)

theorem Finding.not_overflows (h : ∀ key, v.get key = .null) : ¬ Overflows v := by
  rintro (⟨items, vast⟩ | ⟨-, hv⟩ | ⟨-, -, hv⟩ | ⟨-, -, -, hv⟩)
  · rw [h "categories"] at items
    cases items
    exact vast
  · exact ToolFinding.not_overflows (fun _ => by rw [h "raw"]; rfl) hv
  · exact Value.not_isInfinite_null (h _ ▸ hv)
  · exact Value.not_isInfinite_null (h _ ▸ hv)

theorem Finding.ofValue_eq (v : Value) : ofValue v = (do
    let d ← v.requireFields
    let categories := Classification.sorted (← classificationsOf d)
    return {
      raw := ← rawOf d
      index := ← (d.get "index").intOrZero
      file := (d.get "file").textOrEmpty
      line := ← (d.get "line").lenientInt
      severity := ← Severity.ofValueOrMedium (d.get "severity")
      categories := if categories.isEmpty then [.uncovered] else categories
      coarse := (d.get "coarse_location").isTruthy }) := by
  simp only [ofValue, classificationsOf, rawOf, bind_assoc]

theorem Finding.overflowsIff_ofValue (v : Value) : OverflowsIff (ofValue v) (Overflows v) := by
  have hcategories := Value.overflowsIff_itemsOrNone (v := v.get "categories").bind_right fun listed =>
    OverflowsIff.mapM Classification.overflowsIff_ofValue (listed.filter Value.isMap)
  have hraw := Value.overflowsIff_fieldsOrEmpty (v := v.get "raw") ToolFinding.overflowsIff_ofValue
    fun _ => ToolFinding.not_overflows
  rw [ofValue_eq]
  refine Value.overflowsIff_requireFields ?_ not_overflows
  refine (hcategories.andThen fun cs => hraw.andThen fun raw => Value.overflowsIff_intOrZero.andThen fun index =>
    Value.overflowsIff_lenientInt.bind_left fun line =>
      Severity.overflowsIff_ofValueOrMedium.bind_left fun severity => .ok).congr ?_
  change _ ∨ (∃ cs, classificationsOf v = .ok cs) ∧ (_ ∨ (∃ r, rawOf v = .ok r) ∧ _) ↔ _
  rw [overflows_iff]
  simp only [and_or_left]

/-- A location that overflows: its first line, its last line or its column, whichever is read first. -/
@[mk_iff]
inductive Location.Overflows (v : Value) : Prop
  | first (infinite : (v.get "line_start").IsInfinite)
  | last (first : ∃ n, (v.get "line_start").intOrZero = .ok n)
      (infinite : ((v.get "line_end").orElse (v.get "line_start")).IsInfinite)
  | column (first : ∃ n, (v.get "line_start").intOrZero = .ok n)
      (last : ∃ n, ((v.get "line_end").orElse (v.get "line_start")).intOrZero = .ok n)
      (infinite : (v.get "column").IsInfinite)

theorem Location.not_overflows (h : ∀ key, v.get key = .null) : ¬ Overflows v := by
  rintro (hv | ⟨-, hv⟩ | ⟨-, -, hv⟩)
  · exact Value.not_isInfinite_null (h _ ▸ hv)
  · rw [h "line_end", h "line_start"] at hv
    exact Value.not_isInfinite_null hv
  · exact Value.not_isInfinite_null (h _ ▸ hv)

theorem Location.overflowsIff_ofValue (v : Value) : OverflowsIff (ofValue v) (Overflows v) := by
  refine Value.overflowsIff_requireFields ?_ not_overflows
  refine (Value.overflowsIff_intOrZero.andThen (Q := _ ∨ _ ∧ (v.get "column").IsInfinite) fun first =>
    Value.overflowsIff_intOrZero.andThen fun last => ?_).congr ?_
  · split
    next h => exact OverflowsIff.ok.congr (iff_of_false not_false fun ⟨_, _, hv, _⟩ => by rw [hv] at h; cases h)
    next => exact (Value.overflowsIff_toInt.map).bind_left fun column => .ok
  · rw [overflows_iff]
    tauto

theorem RuleRef.overflowsIff_ofValue (v : Value) : OverflowsIff (ofValue v) False :=
  Value.overflowsIff_requireFields .ok fun _ => id

/-- A defect overflows where its location does. -/
theorem Defect.overflowsIff_ofValue (v : Value) :
    OverflowsIff (ofValue v) (Location.Overflows (v.get "location")) := by
  refine Value.overflowsIff_requireFields ?_ fun h => Location.not_overflows fun _ => by rw [h "location"]; rfl
  have hlocation := Value.overflowsIff_fieldsOrEmpty (v := v.get "location") Location.overflowsIff_ofValue
    fun _ => Location.not_overflows
  have hrules (listed : List Value) : OverflowsIff ((listed.filter Value.isMap).mapM RuleRef.ofValue) False :=
    (OverflowsIff.mapM RuleRef.overflowsIff_ofValue _).congr (iff_of_false (not_meets (fun _ => not_false) _) not_false)
  rw [← bind_assoc]
  exact hlocation.bind_left fun location => Severity.overflowsIff_ofValueOrMedium.bind_left fun severity =>
    Value.overflowsIff_itemsOrNone.bind_left fun listed => (hrules listed).bind_left fun rules => .ok

/-- The finding of a result, if there is one. -/
def MatchResult.findingOf (v : Value) : Except Fault (Option Finding) :=
  if (v.get "finding").isMap then (Finding.ofValue (v.get "finding")).map some else .ok none

/-- The defect of a result, if there is one. -/
def MatchResult.defectOf (v : Value) : Except Fault (Option Defect) :=
  if (v.get "ground_truth").isMap then (Defect.ofValue (v.get "ground_truth")).map some else .ok none

/-- A result that has a kind and the parts that its kind needs. -/
def MatchResult.IsShaped (v : Value) : Prop :=
  ∃ kind, MatchKind.ofLabel? (v.get "kind").textOrEmpty = some kind ∧
    (kind.needsDefect = true → (v.get "ground_truth").isMap = true) ∧
    (kind.needsFinding = true → (v.get "finding").isMap = true)

/-- A result that overflows: its finding, its defect or its score, whichever is read first. -/
@[mk_iff]
inductive MatchResult.Overflows (v : Value) : Prop
  | finding (shaped : IsShaped v) (overflows : Finding.Overflows (v.get "finding"))
  | defect (shaped : IsShaped v) (finding : ∃ f, findingOf v = .ok f)
      (overflows : Location.Overflows ((v.get "ground_truth").get "location"))
  | score (shaped : IsShaped v) (finding : ∃ f, findingOf v = .ok f) (defect : ∃ g, defectOf v = .ok g)
      (vast : (v.get "score").IsVast)

theorem MatchResult.overflowsIff_findingOf : OverflowsIff (findingOf v) (Finding.Overflows (v.get "finding")) := by
  rw [findingOf]
  split
  next => exact (Finding.overflowsIff_ofValue _).map
  next h =>
    refine OverflowsIff.ok.congr (iff_of_false not_false (Finding.not_overflows ?_))
    exact Value.get_eq_null_of_not_isMap (Bool.eq_false_iff.2 h)

theorem MatchResult.overflowsIff_defectOf :
    OverflowsIff (defectOf v) (Location.Overflows ((v.get "ground_truth").get "location")) := by
  rw [defectOf]
  split
  next => exact (Defect.overflowsIff_ofValue _).map
  next h =>
    refine OverflowsIff.ok.congr (iff_of_false not_false (Location.not_overflows fun _ => ?_))
    rw [Value.get_eq_null_of_not_isMap (Bool.eq_false_iff.2 h)]
    rfl

theorem MatchResult.not_overflows (h : ∀ key, v.get key = .null) : ¬ Overflows v := by
  have hkind : ¬ IsShaped v := by
    rintro ⟨kind, hkind, -⟩
    have hnone : MatchKind.ofLabel? Value.null.textOrEmpty = none := by decide
    cases (h "kind" ▸ hkind).symm.trans hnone
  rintro (⟨hv, -⟩ | ⟨hv, -⟩ | ⟨hv, -⟩) <;> exact hkind hv

/-- The score of a result, if there is one. -/
def MatchResult.scoreOf (v : Value) : Except Fault (Option Float) :=
  if (v.get "score").isNull then .ok none else (v.get "score").toFloat.map some

theorem MatchResult.overflowsIff_scoreOf : OverflowsIff (scoreOf v) (v.get "score").IsVast := by
  rw [scoreOf]
  split
  next h => exact OverflowsIff.ok.congr (iff_of_false not_false fun ⟨_, hv, _⟩ => by rw [hv] at h; cases h)
  next => exact Value.overflowsIff_toFloat.map

theorem MatchResult.ofValue_of_isShaped (hmap : v.isMap = true) (h : IsShaped v) : ofValue v = (do
    return {
      kind := (v.get "kind").textOrEmpty
      finding := ← findingOf v
      defect := ← defectOf v
      score := ← scoreOf v }) := by
  obtain ⟨kind, hkind, hdefect, hfinding⟩ := h
  have hd : (kind.needsDefect && !(v.get "ground_truth").isMap) = false := by
    cases hneeds : kind.needsDefect <;> simp_all
  have hf : (kind.needsFinding && !(v.get "finding").isMap) = false := by
    cases hneeds : kind.needsFinding <;> simp_all
  simp only [ofValue, Value.requireFields, hmap, if_true, hkind, hd, hf, findingOf, defectOf, scoreOf, bind, Except.bind,
    Bool.false_eq_true, if_false]
  cases (v.get "finding").isMap <;> cases (v.get "ground_truth").isMap <;> cases (v.get "score").isNull <;> rfl

theorem MatchResult.ofValue_of_not_isShaped (hmap : v.isMap = true) (h : ¬ IsShaped v) :
    ∃ r, ofValue v = .error (.rejected r) := by
  simp only [ofValue, Value.requireFields, hmap, if_true, bind, Except.bind]
  split
  next => exact ⟨_, rfl⟩
  next kind hkind =>
    split
    next => exact ⟨_, rfl⟩
    next hdefect =>
    split
    next => exact ⟨_, rfl⟩
    next hfinding =>
    refine absurd ⟨kind, hkind, fun hneeds => ?_, fun hneeds => ?_⟩ h
    · simpa [hneeds] using hdefect
    · simpa [hneeds] using hfinding

theorem MatchResult.overflowsIff_ofValue (v : Value) : OverflowsIff (ofValue v) (Overflows v) := by
  cases hmap : v.isMap with
  | false =>
    have hfields : ofValue v = .error .noFields := by rw [ofValue, Value.requireFields, hmap]; rfl
    rw [hfields]
    exact (OverflowsIff.corruption rfl).congr
      (iff_of_false not_false (not_overflows (Value.get_eq_null_of_not_isMap hmap)))
  | true =>
    by_cases hshaped : IsShaped v
    · rw [ofValue_of_isShaped hmap hshaped]
      refine (overflowsIff_findingOf.andThen fun f => overflowsIff_defectOf.andThen fun g =>
        overflowsIff_scoreOf.bind_left fun score => .ok).congr ?_
      rw [overflows_iff]
      simp only [hshaped, true_and, and_or_left]
    · obtain ⟨r, hr⟩ := ofValue_of_not_isShaped hmap hshaped
      rw [hr]
      refine (OverflowsIff.corruption rfl).congr (iff_of_false not_false ?_)
      rintro (⟨hv, -⟩ | ⟨hv, -⟩ | ⟨hv, -⟩) <;> exact hshaped hv

/-- The names of the counts of diagnostics, in the order of reading. -/
def Diagnostics.countNames : List String :=
  ["parse_failures", "coverage_gaps", "coarse_locations", "timeouts", "crashes", "unclassified_extras", "unknown_files"]

/-- Diagnostics that overflow: a count is without bound, and those before it are read. -/
def Diagnostics.Overflows (v : Value) : Prop :=
  Meets (fun name => (v.get name).intOrZero) (fun name => (v.get name).IsInfinite) countNames

theorem Diagnostics.not_overflows (h : ∀ key, v.get key = .null) : ¬ Overflows v :=
  not_meets (fun name hv => Value.not_isInfinite_null (h name ▸ hv)) _

theorem Diagnostics.overflowsIff_ofValue (v : Value) : OverflowsIff (ofValue v) (Overflows v) := by
  have hcount {α : Type} {name : String} {f : ℤ → Except Fault α} {P : Prop} (hf : ∀ n, OverflowsIff (f n) P) :
      OverflowsIff ((v.get name).intOrZero >>= f)
        ((v.get name).IsInfinite ∨ (∃ n, (v.get name).intOrZero = .ok n) ∧ P) :=
    Value.overflowsIff_intOrZero.andThen hf
  have htexts {α : Type} {name : String} {f : List String → Except Fault α} (hf : ∀ ts, OverflowsIff (f ts) False) :
      OverflowsIff ((do return (← (v.get name).itemsOrNone).map Value.toText) >>= f) False :=
    (Value.overflowsIff_itemsOrNone.bind_left fun listed => .ok).bind_left hf
  refine Value.overflowsIff_requireFields ?_ not_overflows
  exact hcount fun failures => hcount fun gaps => hcount fun coarse => hcount fun timeouts => hcount fun crashes =>
    hcount fun unclassified => hcount fun files => htexts fun paths => htexts fun rules => htexts fun messages => .ok

/-- A report that overflows: its diagnostics, or the first of its results that is not read. -/
@[mk_iff]
inductive Report.Overflows (v : Value) : Prop
  | diagnostics (map : v.isMap = true) (matching : ∃ m, (v.get "matching").toMapping = .ok m)
      (metrics : ∃ m, (v.get "metrics").toMapping = .ok m) (overflows : Diagnostics.Overflows (v.get "diagnostics"))
  | results (map : v.isMap = true) (matching : ∃ m, (v.get "matching").toMapping = .ok m)
      (metrics : ∃ m, (v.get "metrics").toMapping = .ok m)
      (diagnostics : ∃ d, ((v.get "diagnostics").fieldsOrEmpty >>= Diagnostics.ofValue) = .ok d) {listed : List Value}
      (items : (v.get "results").itemsOrNone = .ok listed)
      (overflows : Meets MatchResult.ofValue MatchResult.Overflows (listed.filter Value.isMap))

theorem Report.ofValue_eq (hmap : v.isMap = true) : ofValue v = (do
    let matching ← (v.get "matching").toMapping
    let metrics ← (v.get "metrics").toMapping
    let diagnostics ← (v.get "diagnostics").fieldsOrEmpty >>= Diagnostics.ofValue
    let results ← (v.get "results").itemsOrNone >>= fun listed => (listed.filter Value.isMap).mapM MatchResult.ofValue
    return {
      schemaVersion := if (v.get "schema_version").isTruthy then (v.get "schema_version").toText else currentSchema
      runId := if (v.get "run_id").isTruthy then some (v.get "run_id").toText else none
      corpusVersion := (v.get "corpus_version").textOrEmpty
      tool := (v.get "tool").textOrEmpty
      toolVersion := (v.get "tool_version").textOrEmpty
      crosswalkVersion := (v.get "crosswalk_version").textOrEmpty
      timestamp := (v.get "timestamp").textOrEmpty
      incomplete := (v.get "incomplete").isTruthy
      matching, metrics, diagnostics, results }) := by
  simp only [ofValue, hmap, bind_assoc]
  rfl

theorem Report.overflowsIff_ofValue (v : Value) : OverflowsIff (ofValue v) (Overflows v) := by
  cases hmap : v.isMap with
  | false =>
    have hnone : ofValue v = .error (.rejected .notReport) := by
      rw [ofValue, hmap]
      rfl
    rw [hnone]
    refine (OverflowsIff.corruption rfl).congr (iff_of_false not_false ?_)
    rintro (⟨hv, -⟩ | ⟨hv, -⟩) <;> cases hmap.symm.trans hv
  | true =>
    have hdiagnostics := Value.overflowsIff_fieldsOrEmpty (v := v.get "diagnostics") Diagnostics.overflowsIff_ofValue
      fun _ => Diagnostics.not_overflows
    have hresults := Value.overflowsIff_itemsOrNone (v := v.get "results").bind_right fun listed =>
      OverflowsIff.mapM MatchResult.overflowsIff_ofValue (listed.filter Value.isMap)
    rw [ofValue_eq hmap]
    refine (Value.overflowsIff_toMapping.andThen fun matching => Value.overflowsIff_toMapping.andThen fun metrics =>
      hdiagnostics.andThen fun diagnostics => hresults.bind_left fun results => .ok).congr ?_
    rw [overflows_iff]
    simp only [hmap, false_or, true_and, and_or_left]

end

/-! ## Stored runs -/

namespace RunStore

variable {s : RunStore} {d : Disk} {given : String}

/-- What is wrong with the document of a run is a corruption, if there is a file to read it from. -/
theorem overflowsIff_readRecord {p : Path} (hfile : d.isFile p = .ok true) :
    OverflowsIff (Document.readRecord d p) False := by
  obtain ⟨bytes, hfind⟩ := Disk.isFile_eq_true.1 hfile
  rw [Document.readRecord, Disk.readText, Disk.readBytes_eq_ok.2 hfind]
  have htext : OverflowsIff (Disk.textOf bytes) False := (OverflowsIff.mapError fun _ => rfl).bind_left fun text => .ok
  exact htext.bind_left fun text => OverflowsIff.mapError fun e => by cases e <;> rfl

/-- A run whose report is a file is what the report is read as. -/
theorem load_eq (hid : isDigits (Text.strip given).toList = true)
    (hfile : d.isFile (s.file (Text.strip given) reportName) = .ok true) :
    s.load d given = match Document.readRecord d (s.file (Text.strip given) reportName) >>= Report.ofValue with
      | .ok r => .ok (if r.runId.isNone then r.withRunId given else r)
      | .error f => .error (if isCorruption f then .corruptRun given f.message else f) := by
  rw [load]
  simp only [hid, hfile, Bool.not_true, Bool.false_eq_true, if_false, bind, Except.bind]
  rfl

/-- **Stored runs.** A run whose report is a file is read, or named as corrupt, exactly if its document does not
overflow; if it does, the number that is too large is the fault. -/
theorem load_overflows_iff (hid : isDigits (Text.strip given).toList = true)
    (hfile : d.isFile (s.file (Text.strip given) reportName) = .ok true) :
    (((∃ r, s.load d given = .ok r) ∨ ∃ detail, s.load d given = .error (.corruptRun given detail)) ↔
      ¬ ∃ v, Document.readRecord d (s.file (Text.strip given) reportName) = .ok v ∧ Report.Overflows v) ∧
    (s.load d given = .error .tooLarge ↔
      ∃ v, Document.readRecord d (s.file (Text.strip given) reportName) = .ok v ∧ Report.Overflows v) := by
  have hreport := (overflowsIff_readRecord hfile).bind_right Report.overflowsIff_ofValue
  rw [← hreport.overflow, load_eq hid hfile]
  cases h : Document.readRecord d (s.file (Text.strip given) reportName) >>= Report.ofValue with
  | ok r => simp
  | error f =>
    by_cases hlarge : f = .tooLarge
    · subst hlarge
      simp [isCorruption, Fault.isOfValue]
    · simp [hreport.corrupt f h hlarge, hlarge]

/-! ## A count without bound -/

namespace Unbounded

/-- A report in which a count is infinite. -/
def source : List UInt8 := Utf8.encode "\x7b\"diagnostics\":\x7b\"parse_failures\":Infinity\x7d\x7d"

/-- A place with two stored runs: that report, and a file that is no document. -/
def disk : Disk :=
  { top := .dir [("store", .dir [("runs", .dir [
      ("2026101801093005", .dir [("report.json", .file source)]),
      ("2026101802093006", .dir [("report.json", .file [])])])])]
    cwd := [] }

/-- The store of these runs. -/
def store : RunStore := ⟨Path.ofNames ["store"]⟩

theorem isFile_report : ∀ id ∈ ["2026101801093005", "2026101802093006"], isDigits (Text.strip id).toList = true ∧
    disk.isFile (store.file (Text.strip id) reportName) = .ok true := by
  intro id hid
  rcases List.mem_pair.1 hid with rfl | rfl <;> exact ⟨by decide +kernel, eq_ok_of_toOption (by decide +kernel)⟩

/-- Whether a run is found to hold a number that is too large. -/
def isTooLarge : Except Fault Report → Bool
  | .error .tooLarge => true
  | _ => false

theorem eq_tooLarge {x : Except Fault Report} (h : isTooLarge x = true) : x = .error .tooLarge := by
  unfold isTooLarge at h
  split at h
  · rfl
  · cases h

theorem load_infinite : store.load disk "2026101801093005" = .error .tooLarge := eq_tooLarge (by decide +kernel)

end Unbounded

/-- One of the reports overflows, and the file that is no document is read or named as corrupt. -/
theorem load_overflows_iff_unbounded :
    (isDigits (Text.strip "2026101801093005").toList = true ∧
      Unbounded.disk.isFile (Unbounded.store.file (Text.strip "2026101801093005") reportName) = .ok true) ∧
    (∃ v, Document.readRecord Unbounded.disk (Unbounded.store.file (Text.strip "2026101801093005") reportName) = .ok v ∧
      Report.Overflows v) ∧
    ((∃ r, Unbounded.store.load Unbounded.disk "2026101802093006" = .ok r) ∨
      ∃ detail, Unbounded.store.load Unbounded.disk "2026101802093006" =
        .error (.corruptRun "2026101802093006" detail)) := by
  obtain ⟨hid, hfile⟩ := Unbounded.isFile_report "2026101801093005" (by decide)
  obtain ⟨hid', hfile'⟩ := Unbounded.isFile_report "2026101802093006" (by decide)
  refine ⟨⟨hid, hfile⟩, (load_overflows_iff hid hfile).2.1 Unbounded.load_infinite,
    (load_overflows_iff hid' hfile').1.2 ?_⟩
  have hnone : (Document.readRecord Unbounded.disk
      (Unbounded.store.file (Text.strip "2026101802093006") reportName)).isOk = false := by decide +kernel
  rintro ⟨v, hv, -⟩
  rw [hv] at hnone
  cases hnone

/-- An infinite count: the report is a file of the run, and the run is neither read nor named as corrupt. -/
theorem load_infinite_count :
    Unbounded.disk.isFile (Unbounded.store.file "2026101801093005" reportName) = .ok true ∧
    ¬ ((∃ r, Unbounded.store.load Unbounded.disk "2026101801093005" = .ok r) ∨
      ∃ detail, Unbounded.store.load Unbounded.disk "2026101801093005" =
        .error (.corruptRun "2026101801093005" detail)) := by
  refine ⟨eq_ok_of_toOption (by decide +kernel), ?_⟩
  rw [Unbounded.load_infinite]
  rintro (⟨r, hr⟩ | ⟨detail, h⟩)
  · cases hr
  · cases h

end RunStore

end Assay
