import Assay.Proofs.Confidences
import Assay.Proofs.Reordering
import Assay.Report

/-!
# Reading back what was written

Every record is read leniently: what is missing has a default, what is not understood a substitute.
On the document of a record that a run can produce no default and no substitute is ever taken, so
reading gives the record back, whatever the order of the entries is.
-/

namespace Assay

/-! ## Leaves -/

namespace Value

section
variable {v : Value} {s : String} {n : ℤ} {b : Bool} {x : Float} {α : Type} {f : α → Value} {o : Option α}

theorem reordered_iff {w : Value} (hw : w.IsScalar) : v.Reordered w ↔ v = w :=
  ⟨fun h => h.eq_of_isScalar hw, fun h => h ▸ .refl v⟩

@[simp] theorem reordered_text : v.Reordered (.text s) ↔ v = .text s := reordered_iff trivial
@[simp] theorem reordered_int : v.Reordered (.int n) ↔ v = .int n := reordered_iff trivial
@[simp] theorem reordered_bool : v.Reordered (.bool b) ↔ v = .bool b := reordered_iff trivial
@[simp] theorem reordered_float : v.Reordered (.float x) ↔ v = .float x := reordered_iff trivial

theorem reordered_ofOption (hf : ∀ a, (f a).IsScalar) : v.Reordered (.ofOption f o) ↔ v = .ofOption f o := by
  cases o with
  | none => exact reordered_iff trivial
  | some a => exact reordered_iff (hf a)

@[simp] theorem reordered_ofOption_int {o : Option ℤ} : v.Reordered (.ofOption .int o) ↔ v = .ofOption .int o :=
  reordered_ofOption fun _ => trivial

@[simp] theorem reordered_ofOption_text {o : Option String} :
    v.Reordered (.ofOption .text o) ↔ v = .ofOption .text o := reordered_ofOption fun _ => trivial

@[simp] theorem reordered_ofOption_float {o : Option Float} :
    v.Reordered (.ofOption .float o) ↔ v = .ofOption .float o := reordered_ofOption fun _ => trivial

@[simp] theorem toText_text (s : String) : (Value.text s).toText = s := rfl

@[simp] theorem textOrEmpty_text (s : String) : (Value.text s).textOrEmpty = s := by
  by_cases h : s = ""
  · rw [h]; rfl
  · simp [textOrEmpty, isTruthy, unfold, h]

@[simp] theorem textOrEmpty?_text (s : String) : (Value.text s).textOrEmpty? = .ok s := by
  by_cases h : s = ""
  · rw [h]; rfl
  · simp [textOrEmpty?, isTruthy, unfold, toText?, ownText?, h]

@[simp] theorem intOrZero_int (n : ℤ) : (Value.int n).intOrZero = .ok n := by
  by_cases h : n = 0
  · rw [h]; rfl
  · simp [intOrZero, isTruthy, unfold, h, toInt]

@[simp] theorem isTruthy_bool (b : Bool) : (Value.bool b).isTruthy = b := rfl

@[simp] theorem lenientInt_ofOption (o : Option ℤ) : (Value.ofOption .int o).lenientInt = .ok o := by
  cases o <;> rfl

end

end Value

/-! ## Records and lists of records -/

namespace Value

section
variable {v : Value} {entries : List (String × Value)}

theorem Reordered.isTruthy (h : v.Reordered (.record entries)) (filled : entries ≠ []) : v.isTruthy = true := by
  have truthy : ∀ {es : List (Value × Value)}, 0 < es.length → (Value.map es).isTruthy = true := by
    intro es hes
    cases es with
    | nil => cases hes
    | cons => rfl
  have hlen : 0 < (entries.map fun e => (Value.text e.1, e.2)).length := by
    rw [List.length_map]
    exact List.length_pos_iff.2 filled
  change v.Reordered (.map (entries.map fun e => (Value.text e.1, e.2))) at h
  generalize (entries.map fun e => (Value.text e.1, e.2)) = gs at h hlen
  cases h with
  | refl => exact truthy hlen
  | @map es fs _ hsame _ hperm =>
    have hes : es.length = fs.length := by simpa using congrArg List.length hsame
    exact truthy (by rw [hes, hperm.length_eq]; exact hlen)

theorem Reordered.fieldsOrEmpty (h : v.Reordered (.record entries)) (filled : entries ≠ [])
    (distinct : (entries.map (·.1)).Nodup) : v.fieldsOrEmpty = .ok v := by
  simp [Value.fieldsOrEmpty, requireFields, h.isTruthy filled, (h.fields distinct).1]

theorem Reordered.toMapping (h : v.Reordered (.record entries)) (filled : entries ≠ [])
    (distinct : (entries.map (·.1)).Nodup) : v.toMapping = .ok v := by
  simp [Value.toMapping, h.isTruthy filled, (h.fields distinct).1]

end

end Value

section
variable {α β : Type} {encode : β → Value} {decode : Value → Except Fault α} {S : α → β → Prop} {v : Value}
  {bs : List β} {ws : List Value}

theorem Value.Reordered.items (h : v.Reordered (.list ws)) :
    ∃ vs, v.itemsOrNone = .ok vs ∧ List.Forall₂ Reordered vs ws := by
  have own : ∀ vs : List Value, (Value.list vs).itemsOrNone = .ok vs := by
    intro vs
    cases vs <;> rfl
  cases h with
  | refl => exact ⟨ws, own ws, List.forall₂_same.2 fun w _ => .refl w⟩
  | list h => exact ⟨_, own _, h⟩

/-- A list of records is read record by record, if each record is a mapping that is read. -/
theorem decode_list (h : v.Reordered (.list (bs.map encode)))
    (each : ∀ b ∈ bs, ∀ w, w.Reordered (encode b) → w.isMap = true ∧ ∃ a, decode w = .ok a ∧ S a b) :
    ∃ vs as, v.itemsOrNone = .ok vs ∧ (vs.filter Value.isMap).mapM decode = .ok as ∧ List.Forall₂ S as bs := by
  obtain ⟨vs, hvs, hall⟩ := h.items
  rw [List.forall₂_map_right_iff] at hall
  have hread : vs.filter Value.isMap = vs ∧ ∃ as, List.Forall₂ (fun w a => decode w = .ok a) vs as ∧
      List.Forall₂ S as bs := by
    clear hvs h
    induction hall with
    | nil => exact ⟨rfl, [], .nil, .nil⟩
    | @cons w b vs bs hwb _ ih =>
      obtain ⟨hmap, a, ha, hS⟩ := each b (by simp) w hwb
      obtain ⟨hfilter, as, has, hall⟩ := ih fun b hb => each b (by simp [hb])
      exact ⟨by rw [List.filter_cons_of_pos hmap, hfilter], a :: as, .cons ha has, .cons hS hall⟩
  obtain ⟨hfilter, as, has, hS⟩ := hread
  refine ⟨vs, as, hvs, ?_, hS⟩
  rw [hfilter]
  exact mapM_eq_ok.2 has

end

/-! ## Findings -/

theorem Category.ofValue?_label (c : Category) : ofValue? true (.text c.label) = some c := by
  have h : ∀ c ∈ all, ofValue? true (.text c.label) = some c := by decide
  exact h c (mem_all c)

theorem Category.label_injective : Function.Injective Category.label := by
  intro c k h
  have hread := Category.ofValue?_label c
  rw [h, Category.ofValue?_label] at hread
  exact (Option.some.inj hread).symm

theorem Category.ofValue?_label_of_isCanonical {c : Category} (h : c.isCanonical = true) :
    ofValue? false (.text c.label) = some c := by
  have hall : ∀ c ∈ all, c.isCanonical = true → ofValue? false (.text c.label) = some c := by decide
  exact hall c (mem_all c) h

theorem Severity.ofValueOrMedium_label (s : Severity) : ofValueOrMedium (.text s.label) = .ok s := by
  refine eq_ok_of_toOption ?_
  cases s <;> decide

theorem ToolFinding.ofValue_reordered {v : Value} {f : ToolFinding} (h : v.Reordered f.toValue) :
    ofValue v = .ok f := by
  obtain ⟨hmap, hfields⟩ := h.fields (by simp)
  simp only [List.forall_mem_cons, Value.reordered_text, Value.reordered_ofOption_int,
    Value.reordered_ofOption_text] at hfields
  obtain ⟨tool, toolVersion, ruleId, file, line, column, message, severity, -⟩ := hfields
  have hseverity : (if (Value.ofOption .text f.nativeSeverity).isNull then none
      else some (Value.ofOption .text f.nativeSeverity).toText) = f.nativeSeverity := by
    cases f.nativeSeverity <;> rfl
  simp [ofValue, Value.requireFields, hmap, tool, toolVersion, ruleId, file, line, column, message, severity,
    hseverity, bind, Except.bind, pure, Except.pure]

theorem Classification.ofValue_reordered {v : Value} {c : Classification} (hc : c.IsNumber)
    (h : v.Reordered c.toValue) : v.isMap = true ∧ ∃ c', ofValue v = .ok c' ∧ Same c' c := by
  obtain ⟨hmap, hfields⟩ := h.fields (by simp)
  simp only [List.forall_mem_cons, Value.reordered_text, Value.reordered_float] at hfields
  obtain ⟨category, confidence, -⟩ := hfields
  have hself : (c.confidence == c.confidence) = true := (Same.refl hc).2
  refine ⟨hmap, ?_⟩
  by_cases hzero : c.confidence == 0
  · refine ⟨⟨c.category, 0⟩, ?_, rfl, ?_⟩
    · simp [ofValue, Value.requireFields, hmap, category, confidence, Value.isTruthy, Value.unfold, bne, hzero,
        Category.ofValue?_label, bind, Except.bind, pure, Except.pure]
    · have hnum := Binary64.isNaN_of_beq hzero
      exact (Binary64.beq_iff_level hnum.2 hnum.1).2 ((Binary64.beq_iff_level hnum.1 hnum.2).1 hzero).symm
  · refine ⟨c, ?_, Same.refl hc⟩
    simp [ofValue, Value.requireFields, hmap, category, confidence, Value.isTruthy, Value.unfold, bne, hzero,
      Category.ofValue?_label, Value.toFloat, bind, Except.bind, pure, Except.pure]

namespace Finding

/-- Equality of findings: confidences are equal as numbers. -/
structure Same (a b : Finding) : Prop where
  raw : a.raw = b.raw
  index : a.index = b.index
  file : a.file = b.file
  line : a.line = b.line
  severity : a.severity = b.severity
  categories : List.Forall₂ Classification.Same a.categories b.categories
  coarse : a.coarse = b.coarse

/-- The categories of a finding are in order, there is one, and their confidences are numbers. -/
structure Ordered (f : Finding) : Prop where
  filled : f.categories ≠ []
  sorted : ∃ cs, f.categories = Classification.sorted cs ∧ ∀ c ∈ cs, c.IsNumber

theorem ofValue_reordered {v : Value} {f : Finding} (hf : f.Ordered) (h : v.Reordered f.toValue) :
    v.isMap = true ∧ ∃ f', ofValue v = .ok f' ∧ Same f' f := by
  obtain ⟨hmap, hfields⟩ := h.fields (by simp)
  simp only [List.forall_mem_cons, Value.reordered_text, Value.reordered_ofOption_int, Value.reordered_int,
    Value.reordered_bool] at hfields
  obtain ⟨-, index, file, line, severity, categories, coarse, raw, -⟩ := hfields
  obtain ⟨cs, hcs, hnumber⟩ := hf.sorted
  have hcategories : ∀ c ∈ f.categories, c.IsNumber := fun c hc =>
    hnumber c ((Sorting.sort_perm _ _).mem_iff.1 (hcs ▸ hc))
  obtain ⟨vs, ds, hitems, hdecode, hsame⟩ := decode_list categories fun c hc w hw =>
    Classification.ofValue_reordered (hcategories c hc) hw
  have hsorted : Classification.sorted ds = ds := Classification.sorted_of_same hnumber (hcs ▸ hsame)
  have hne : ds.isEmpty = false := by
    rw [List.isEmpty_eq_false_iff]
    rintro rfl
    exact hf.filled (List.forall₂_nil_left_iff.1 hsame)
  have hraw := raw.fieldsOrEmpty (by simp) (by simp)
  refine ⟨hmap, ⟨f.raw, f.index, f.file, f.line, f.severity, ds, f.coarse⟩, ?_,
    ⟨rfl, rfl, rfl, rfl, rfl, hsame, rfl⟩⟩
  simp [ofValue, Value.requireFields, hmap, index, file, line, severity, coarse, hitems, hdecode, hsorted, hne,
    hraw, ToolFinding.ofValue_reordered raw, Severity.ofValueOrMedium_label, bind, Except.bind, pure, Except.pure]

end Finding

/-! ## Defects -/

theorem RuleRef.ofValue_reordered {v : Value} {r : RuleRef} (h : v.Reordered r.toValue) :
    v.isMap = true ∧ ∃ r', ofValue v = .ok r' ∧ r' = r := by
  obtain ⟨hmap, hfields⟩ := h.fields (by simp)
  simp only [List.forall_mem_cons, Value.reordered_text] at hfields
  obtain ⟨standard, ruleId, -⟩ := hfields
  have other : v.get "ruleId" = .null := h.get_absent (by simp)
  have hrule : ((v.get "rule_id").orElse (v.get "ruleId")).textOrEmpty = r.ruleId := by
    by_cases hr : r.ruleId = ""
    · rw [ruleId, other, hr]
      rfl
    · rw [ruleId, Value.orElse, if_pos (by simp [Value.isTruthy, Value.unfold, hr]), Value.textOrEmpty_text]
  refine ⟨hmap, r, ?_, rfl⟩
  simp only [ofValue, Value.requireFields, hmap, standard, hrule, if_true, bind, Except.bind, pure, Except.pure,
    Value.textOrEmpty_text]

theorem Location.ofValue_reordered {v : Value} {l : Location} (hl : l.lineEnd ≠ 0) (h : v.Reordered l.toValue) :
    ofValue v = .ok l := by
  obtain ⟨hmap, hfields⟩ := h.fields (by simp)
  simp only [List.forall_mem_cons, Value.reordered_text, Value.reordered_int, Value.reordered_ofOption_int] at hfields
  obtain ⟨file, lineStart, lineEnd, column, -⟩ := hfields
  have hend : (v.get "line_end").orElse (.int l.lineStart) = .int l.lineEnd := by
    rw [lineEnd, Value.orElse, if_pos (by simp [Value.isTruthy, Value.unfold, hl])]
  simp only [ofValue, Value.requireFields, hmap, file, lineStart, hend, column, if_true, Value.textOrEmpty_text,
    Value.intOrZero_int, bind, Except.bind, pure, Except.pure]
  obtain ⟨f, a, b, _ | k⟩ := l
  · rfl
  · rfl

namespace Defect

/-- The category of a defect is canonical, and its range ends in a line. -/
structure Plain (g : Defect) : Prop where
  category : g.category.isCanonical = true
  lineEnd : g.location.lineEnd ≠ 0

theorem ofValue_reordered {v : Value} {g : Defect} (hg : g.Plain) (h : v.Reordered g.toValue) :
    v.isMap = true ∧ ofValue v = .ok g := by
  obtain ⟨hmap, hfields⟩ := h.fields (by simp)
  simp only [List.forall_mem_cons, Value.reordered_text, Value.reordered_bool] at hfields
  obtain ⟨id, sampleId, category, location, severity, rules, note, conditional, duplicate, -⟩ := hfields
  obtain ⟨vs, rs, hitems, hdecode, hsame⟩ := decode_list rules fun r _ w hw => RuleRef.ofValue_reordered hw
  have hrules : rs = g.rules := List.forall₂_eq_eq_eq ▸ hsame
  have hlocation := location.fieldsOrEmpty (by simp) (by simp)
  refine ⟨hmap, ?_⟩
  simp [ofValue, Value.requireFields, hmap, id, sampleId, category, severity, note, conditional, duplicate, hitems,
    hdecode, hrules, hlocation, Location.ofValue_reordered hg.lineEnd location, Severity.ofValueOrMedium_label,
    Category.ofValue?_label_of_isCanonical hg.category, bind, Except.bind, pure, Except.pure]

end Defect

/-! ## Results -/

namespace MatchResult

/-- Equality of results: confidences are equal as numbers. -/
structure Same (a b : MatchResult) : Prop where
  kind : a.kind = b.kind
  finding : Option.Rel Finding.Same a.finding b.finding
  defect : a.defect = b.defect
  score : a.score = b.score

/-- A result has a kind and the parts that its kind needs, and its parts are those of a run. -/
structure Sound (r : MatchResult) : Prop where
  known : ∃ k, MatchKind.ofLabel? r.kind = some k ∧ (k.needsDefect = true → r.defect.isSome = true) ∧
    (k.needsFinding = true → r.finding.isSome = true)
  finding : ∀ f, r.finding = some f → f.Ordered
  defect : ∀ g, r.defect = some g → g.Plain

theorem ofValue_reordered {v : Value} {r : MatchResult} (hr : r.Sound) (h : v.Reordered r.toValue) :
    v.isMap = true ∧ ∃ r', ofValue v = .ok r' ∧ Same r' r := by
  obtain ⟨hmap, hfields⟩ := h.fields (by simp)
  simp only [List.forall_mem_cons, Value.reordered_text, Value.reordered_ofOption_float] at hfields
  obtain ⟨kind, finding, defect, score, -⟩ := hfields
  obtain ⟨k, hk, needsDefect, needsFinding⟩ := hr.known
  have missing : ∀ {needs present : Bool}, (needs = true → present = true) → (needs && !present) = false := by
    intro needs present h
    cases needs with
    | false => rfl
    | true => rw [h rfl]; rfl
  -- Each part is either absent and null, or present and read.
  have hfinding : (v.get "finding").isMap = r.finding.isSome ∧
      (r.finding = none ∨ ∃ f f', r.finding = some f ∧ Finding.ofValue (v.get "finding") = .ok f' ∧ f'.Same f) := by
    cases hf : r.finding with
    | none =>
      rw [hf] at finding
      have hnull : v.get "finding" = .null := finding.eq_of_isScalar trivial
      exact ⟨by rw [hnull]; rfl, .inl rfl⟩
    | some f =>
      rw [hf] at finding
      obtain ⟨hmap, f', hread, hsame⟩ := Finding.ofValue_reordered (hr.finding f hf) finding
      exact ⟨hmap, .inr ⟨f, f', rfl, hread, hsame⟩⟩
  have hdefect : (v.get "ground_truth").isMap = r.defect.isSome ∧
      (r.defect = none ∨ ∃ g, r.defect = some g ∧ Defect.ofValue (v.get "ground_truth") = .ok g) := by
    cases hg : r.defect with
    | none =>
      rw [hg] at defect
      have hnull : v.get "ground_truth" = .null := defect.eq_of_isScalar trivial
      exact ⟨by rw [hnull]; rfl, .inl rfl⟩
    | some g =>
      rw [hg] at defect
      obtain ⟨hmap, hread⟩ := Defect.ofValue_reordered (hr.defect g hg) defect
      exact ⟨hmap, .inr ⟨g, rfl, hread⟩⟩
  have hscore : r.score = none ∨ ∃ x, r.score = some x := by
    cases r.score <;> simp
  refine ⟨hmap, ?_⟩
  simp only [ofValue, Value.requireFields, hmap, kind, Value.textOrEmpty_text, hk, hdefect.1, hfinding.1,
    missing needsDefect, missing needsFinding, if_true, Bool.false_eq_true, if_false, bind, Except.bind, pure,
    Except.pure]
  obtain ⟨label, fo, go, so⟩ := r
  rcases hfinding.2 with hf | ⟨f, f', hf, hread, hsame⟩ <;> rcases hdefect.2 with hg | ⟨g, hg, hgread⟩ <;>
    rcases hscore with hs | ⟨x, hs⟩ <;> cases hf <;> cases hg <;> cases hs
  · exact ⟨⟨label, none, none, none⟩, by rw [score]; rfl, rfl, .none, rfl, rfl⟩
  · exact ⟨⟨label, none, none, some x⟩, by rw [score]; rfl, rfl, .none, rfl, rfl⟩
  · exact ⟨⟨label, none, some g, none⟩, by rw [score, hgread]; rfl, rfl, .none, rfl, rfl⟩
  · exact ⟨⟨label, none, some g, some x⟩, by rw [score, hgread]; rfl, rfl, .none, rfl, rfl⟩
  · exact ⟨⟨label, some f', none, none⟩, by rw [score, hread]; rfl, rfl, .some hsame, rfl, rfl⟩
  · exact ⟨⟨label, some f', none, some x⟩, by rw [score, hread]; rfl, rfl, .some hsame, rfl, rfl⟩
  · exact ⟨⟨label, some f', some g, none⟩, by rw [score, hread, hgread]; rfl, rfl, .some hsame, rfl, rfl⟩
  · exact ⟨⟨label, some f', some g, some x⟩, by rw [score, hread, hgread]; rfl, rfl, .some hsame, rfl, rfl⟩

end MatchResult

/-! ## Reports -/

theorem Diagnostics.ofValue_reordered {v : Value} {d : Diagnostics} (h : v.Reordered d.toValue) :
    ofValue v = .ok d := by
  obtain ⟨hmap, hfields⟩ := h.fields (by simp)
  simp only [List.forall_mem_cons, Value.reordered_int] at hfields
  obtain ⟨parseFailures, gaps, coarse, timeouts, crashes, extras, unknown, paths, rules, errors, -⟩ := hfields
  have texts : ∀ {w : Value} {names : List String}, w.Reordered (.list (names.map .text)) →
      ∃ vs, w.itemsOrNone = .ok vs ∧ vs.map Value.toText = names := by
    intro w names hw
    obtain ⟨vs, hvs, hall⟩ := hw.items
    refine ⟨vs, hvs, ?_⟩
    rw [List.forall₂_map_right_iff] at hall
    clear hvs hw
    induction hall with
    | nil => rfl
    | cons hs _ ih => rw [List.map_cons, ih, Value.reordered_text.1 hs, Value.toText_text]
  obtain ⟨ps, hps, hpaths⟩ := texts paths
  obtain ⟨qs, hqs, hrules⟩ := texts rules
  obtain ⟨es, hes, herrors⟩ := texts errors
  simp only [ofValue, Value.requireFields, hmap, parseFailures, gaps, coarse, timeouts, crashes, extras, unknown,
    hps, hqs, hes, hpaths, hrules, herrors, if_true, Value.intOrZero_int, bind, Except.bind, pure, Except.pure]

namespace Report

/-- Equality of reports: the entries of mappings have no order, and confidences are equal as numbers. -/
structure Same (a b : Report) : Prop where
  schemaVersion : a.schemaVersion = b.schemaVersion
  runId : a.runId = b.runId
  corpusVersion : a.corpusVersion = b.corpusVersion
  tool : a.tool = b.tool
  toolVersion : a.toolVersion = b.toolVersion
  crosswalkVersion : a.crosswalkVersion = b.crosswalkVersion
  timestamp : a.timestamp = b.timestamp
  incomplete : a.incomplete = b.incomplete
  matching : a.matching.Reordered b.matching
  metrics : a.metrics.Reordered b.metrics
  diagnostics : a.diagnostics = b.diagnostics
  results : List.Forall₂ MatchResult.Same a.results b.results

/-- A report is that of a run: nothing that has a substitute is empty, and its results are those of a
run. -/
structure Sound (r : Report) : Prop where
  schemaVersion : r.schemaVersion ≠ ""
  runId : r.runId ≠ some ""
  matching : ∃ entries, r.matching = .record entries ∧ entries ≠ [] ∧ (entries.map (·.1)).Nodup
  metrics : ∃ entries, r.metrics = .record entries ∧ entries ≠ [] ∧ (entries.map (·.1)).Nodup
  results : ∀ m ∈ r.results, m.Sound

/-- **Decoding.** The document of a report is read as that report, whatever the order of its entries
is. -/
theorem ofValue_reordered {v : Value} {r : Report} (hr : r.Sound) (h : v.Reordered r.toValue) :
    ∃ r', ofValue v = .ok r' ∧ Same r' r := by
  obtain ⟨hmap, hfields⟩ := h.fields (by simp)
  simp only [List.forall_mem_cons, Value.reordered_text, Value.reordered_ofOption_text,
    Value.reordered_bool] at hfields
  obtain ⟨schema, runId, corpusVersion, tool, toolVersion, crosswalkVersion, timestamp, incomplete, matching, metrics,
    diagnostics, results, -⟩ := hfields
  have mapping : ∀ {w : Value}, (∃ entries, w = .record entries ∧ entries ≠ [] ∧ (entries.map (·.1)).Nodup) →
      ∀ {u : Value}, u.Reordered w → u.toMapping = .ok u := by
    rintro w ⟨entries, rfl, filled, distinct⟩ u hu
    exact hu.toMapping filled distinct
  have hmatching := mapping hr.matching matching
  have hmetrics := mapping hr.metrics metrics
  have hdiagnostics := diagnostics.fieldsOrEmpty (by simp) (by simp)
  obtain ⟨vs, ms, hitems, hdecode, hsame⟩ := decode_list results fun m hm w hw =>
    MatchResult.ofValue_reordered (hr.results m hm) hw
  have hschema : (if (Value.text r.schemaVersion).isTruthy then (Value.text r.schemaVersion).toText
      else currentSchema) = r.schemaVersion := by
    rw [if_pos (by simp [Value.isTruthy, Value.unfold, hr.schemaVersion]), Value.toText_text]
  have hrunId : (if (Value.ofOption .text r.runId).isTruthy then some (Value.ofOption .text r.runId).toText
      else none) = r.runId := by
    cases ho : r.runId with
    | none => rfl
    | some s =>
      have hs : s ≠ "" := fun e => hr.runId (ho.trans (congrArg some e))
      rw [Value.ofOption, if_pos (by simp [Value.isTruthy, Value.unfold, hs]), Value.toText_text]
  refine ⟨{ r with matching := v.get "matching", metrics := v.get "metrics", results := ms }, ?_,
    ⟨rfl, rfl, rfl, rfl, rfl, rfl, rfl, rfl, matching, metrics, rfl, hsame⟩⟩
  simp only [ofValue, hmap, schema, hschema, runId, hrunId, corpusVersion, tool, toolVersion, crosswalkVersion, timestamp,
    incomplete, hmatching, hmetrics, hdiagnostics, Diagnostics.ofValue_reordered diagnostics, hitems, hdecode,
    Value.textOrEmpty_text, Value.isTruthy_bool, Bool.not_true, Bool.false_eq_true, if_false, bind, Except.bind, pure,
    Except.pure]

end Report

end Assay
