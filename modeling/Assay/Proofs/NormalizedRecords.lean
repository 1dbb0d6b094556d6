import Assay.Proofs.InputOrder
import Assay.Proofs.Normalization

/-!
# Records and what they come to

A record of a tool's output is read, or rejected with a message, or it ends the normalization. What has been read
becomes the findings, and everything that the diagnostics say is determined by the findings and the messages
(`Normalized.tally`). One record extends one of the two lists by one item, so a run over the records has the
findings of what can be read in them and the messages of the rest (`Normalized.addRecords_eq_ok_iff`).
-/

namespace Assay

/-! ## Names, each once and in order -/

namespace Diagnostics

/-- Names that are each there once strictly ascend when they are put in order. -/
theorem ascending_pairwise_of_nodup {names : List String} (h : names.Nodup) :
    (ascending names).Pairwise fun a b => Text.before a b = true := by
  refine (ascending_pairwise names).imp₂ ?_ ((List.mergeSort_perm _ _).nodup_iff.2 h)
  intro a b hle hne
  exact Text.before_iff.2 (lt_of_le_of_ne hle fun h => hne (Text.rankKey_inj.1 h))

theorem canonical_pairwise (names : List String) :
    (canonical names).Pairwise fun a b => Text.before a b = true :=
  ascending_pairwise_of_nodup (nodup_distinct names)

/-- A name that is already there changes nothing, any other goes to its place. -/
theorem canonical_append_singleton (names : List String) (name : String) :
    canonical (names ++ [name]) =
      if (canonical names).contains name then canonical names else ascending (canonical names ++ [name]) := by
  split
  next hold =>
    rw [List.contains_iff_mem, mem_canonical] at hold
    refine canonical_congr fun n => ?_
    rw [List.mem_append, List.mem_singleton]
    exact or_iff_left_of_imp fun h => h ▸ hold
  next hnew =>
    rw [List.contains_iff_mem] at hnew
    refine ascending_eq_of_perm ((List.perm_ext_iff_of_nodup (nodup_distinct _) ?_).2 fun n => ?_)
    · exact (nodup_canonical names).append (List.nodup_singleton name) (List.disjoint_singleton.2 hnew)
    · rw [mem_distinct, List.mem_append, List.mem_append, mem_canonical]

/-- One more message is kept if there is room for it. -/
theorem take_append_singleton (messages : List String) (message : String) :
    (messages ++ [message]).take maxKept =
      if (messages.take maxKept).length < maxKept then messages.take maxKept ++ [message]
      else messages.take maxKept := by
  rw [List.length_take]
  split
  next hroom =>
    have hlength : messages.length < maxKept := by omega
    rw [List.take_of_length_le (by simp; omega), List.take_of_length_le hlength.le]
  next hfull => exact List.take_append_of_le_length (by omega)

end Diagnostics

/-- Whether the rule of a finding of a tool is in the crosswalk. -/
def Finding.isCovered (t : Tool) (x : Crosswalk) (f : Finding) : Bool :=
  x.covers (RuleKey.of t.standard f.raw.ruleId)

namespace Normalized

variable {t : Tool} {x : Crosswalk} {root : Option (Except Fault CorpusRoot)} {run : ToolRun} {r : ToolRecord}
  {records : List ToolRecord} {raw : ToolFinding} {raws : List ToolFinding} {f : Finding} {fs : List Finding}
  {messages : List String} {index : ℕ}

/-! ## What records come to -/

/-- Whether a record is rejected. -/
def rejects (t : Tool) (run : ToolRun) (r : ToolRecord) : Bool :=
  match t.format.parse run r with
  | .error (.record _) => true
  | _ => false

/-- What is read in records, in their order. -/
def readings (t : Tool) (run : ToolRun) (records : List ToolRecord) : List ToolFinding :=
  records.filterMap fun r => (t.format.parse run r).toOption

/-- The messages of the records that are rejected, where the first record is number `index`. -/
def refusals (t : Tool) (run : ToolRun) : ℕ → List ToolRecord → List String
  | _, [] => []
  | index, r :: rest =>
    match t.format.parse run r with
    | .error (.record fault) => failureText t index fault :: refusals t run (index + 1) rest
    | _ => refusals t run (index + 1) rest

/-- The findings made of what was read, the first of which is number `index`. -/
def findingsOf (t : Tool) (x : Crosswalk) (root : Option (Except Fault CorpusRoot)) (index : ℕ)
    (raws : List ToolFinding) : Except Fault (List Finding) :=
  (raws.zipIdx index).mapM fun (raw, i) => findingOf t x root i raw

/-- The labels of the rules of findings that the crosswalk does not cover. -/
def gapLabels (t : Tool) (x : Crosswalk) (fs : List Finding) : List String :=
  (fs.filter fun f => !f.isCovered t x).map fun f => (RuleKey.of t.standard f.raw.ruleId).label

/-- The diagnostics of findings and of the messages of rejected records. -/
def tally (t : Tool) (x : Crosswalk) (fs : List Finding) (messages : List String) : Diagnostics :=
  { Diagnostics.empty with
    parseFailures := messages.length
    parseErrors := messages.take Diagnostics.maxKept
    coarseLocations := fs.countP (·.line.isNone)
    coverageGaps := fs.countP fun f => !f.isCovered t x
    gapRules := Diagnostics.canonical (gapLabels t x fs) }

theorem readings_cons_of_ok (h : t.format.parse run r = .ok raw) :
    readings t run (r :: records) = raw :: readings t run records :=
  List.filterMap_cons_some (by rw [h]; rfl)

theorem readings_cons_of_error {fault : Fault} (h : t.format.parse run r = .error fault) :
    readings t run (r :: records) = readings t run records :=
  List.filterMap_cons_none (by rw [h]; rfl)

theorem length_refusals (t : Tool) (run : ToolRun) (index : ℕ) (records : List ToolRecord) :
    (refusals t run index records).length = records.countP (rejects t run) := by
  induction records generalizing index with
  | nil => rfl
  | cons r rest ih =>
    rw [refusals, List.countP_cons, rejects, ← ih (index + 1)]
    split <;> rfl

/-- Without the rejected records the same is read. -/
theorem readings_filter : readings t run (records.filter fun r => !rejects t run r) = readings t run records := by
  rw [readings, List.filterMap_filter, readings]
  refine List.filterMap_congr fun r _ => ?_
  unfold rejects
  split
  next hr => rw [hr]; rfl
  next => rfl

theorem findingsOf_cons_eq_ok : findingsOf t x root index (raw :: raws) = .ok fs ↔
    ∃ f rest, findingOf t x root index raw = .ok f ∧ findingsOf t x root (index + 1) raws = .ok rest ∧
      fs = f :: rest := by
  rw [findingsOf, List.zipIdx_cons, List.mapM_cons]
  constructor
  · intro h
    obtain ⟨f, hf, h⟩ := bind_eq_ok.1 h
    obtain ⟨rest, hrest, h⟩ := bind_eq_ok.1 h
    cases h
    exact ⟨f, rest, hf, hrest, rfl⟩
  · rintro ⟨f, rest, hf, hrest, rfl⟩
    exact bind_eq_ok.2 ⟨f, hf, bind_eq_ok.2 ⟨rest, hrest, rfl⟩⟩

/-- A finding has the number that it was made with. -/
theorem index_of_findingOf (h : findingOf t x root index raw = .ok f) : f.index = index := by
  obtain ⟨file, severity, -, -, rfl⟩ := findingOf_eq_ok.1 h
  rfl

/-- A finding is coarse exactly if it has no line. -/
theorem coarse_of_findingOf (h : findingOf t x root index raw = .ok f) : f.coarse = f.line.isNone := by
  obtain ⟨file, severity, -, -, rfl⟩ := findingOf_eq_ok.1 h
  rfl

/-- The findings of what was read are numbered without gaps. -/
theorem indexes_of_findingsOf (h : findingsOf t x root index raws = .ok fs) :
    fs.map Finding.index = (List.range' index raws.length).map Int.ofNat := by
  induction raws generalizing index fs with
  | nil =>
    cases h
    rfl
  | cons raw raws ih =>
    obtain ⟨f, rest, hf, hrest, rfl⟩ := findingsOf_cons_eq_ok.1 h
    rw [List.map_cons, index_of_findingOf hf, ih hrest, List.length_cons, List.range'_succ, List.map_cons, Int.ofNat_eq_natCast]

/-! ## One record -/

/-- One more finding is counted for what it lacks. -/
theorem count_tally (h : f.coarse = f.line.isNone) :
    count t x (tally t x fs messages) f = tally t x (fs ++ [f]) messages := by
  have hcoarse : (fs ++ [f]).countP (·.line.isNone) = fs.countP (·.line.isNone) + if f.coarse then 1 else 0 := by
    rw [List.countP_append, List.countP_singleton, h]
  have hcovers : x.covers (RuleKey.of t.standard f.raw.ruleId) = f.isCovered t x := rfl
  simp only [count, tally, hcoarse, hcovers]
  cases hcovered : f.isCovered t x with
  | true =>
    have hlabels : gapLabels t x (fs ++ [f]) = gapLabels t x fs := by simp [gapLabels, hcovered]
    rw [hlabels]
    cases f.coarse <;> simp [Diagnostics.recordCoarse, hcovered]
  | false =>
    have hlabels : gapLabels t x (fs ++ [f]) =
        gapLabels t x fs ++ [(RuleKey.of t.standard f.raw.ruleId).label] := by simp [gapLabels, hcovered]
    rw [hlabels, Diagnostics.canonical_append_singleton]
    cases f.coarse <;> simp [Diagnostics.recordCoarse, Diagnostics.recordGap, hcovered]

/-- One more rejected record is counted, and its message kept if there is room. -/
theorem recordParseFailure_tally (message : String) :
    (tally t x fs messages).recordParseFailure message = tally t x fs (messages ++ [message]) := by
  rw [tally, tally, Diagnostics.take_append_singleton]
  simp [Diagnostics.recordParseFailure]

/-! ## A run over the records -/

/-- Records are added exactly if each is read or rejected and what is read can be made findings; these follow
the findings so far, and the diagnostics are those of all findings and of all messages. -/
theorem addRecords_eq_ok_iff {n m : Normalized} (hn : n.diagnostics = tally t x n.findings messages) :
    addRecords t x root run n index records = .ok m ↔
      (∀ r ∈ records, ¬ Aborts (t.format.parse run r)) ∧ ∃ new,
        findingsOf t x root n.findings.length (readings t run records) = .ok new ∧
        m = { n with
          findings := n.findings ++ new
          diagnostics := tally t x (n.findings ++ new) (messages ++ refusals t run index records) } := by
  induction records generalizing n messages index with
  | nil =>
    rw [addRecords, refusals, List.append_nil]
    constructor
    · intro h
      cases h
      exact ⟨fun r hr => absurd hr List.not_mem_nil, [], rfl, by rw [List.append_nil, ← hn]⟩
    · rintro ⟨-, new, hnew, rfl⟩
      cases (show Except.ok [] = Except.ok new from hnew)
      rw [List.append_nil, ← hn]
  | cons r rest ih =>
    rw [List.forall_mem_cons, addRecords, refusals]
    cases hr : t.format.parse run r with
    | ok raw =>
      rw [readings_cons_of_ok hr]
      simp only [findingsOf_cons_eq_ok, bind_eq_ok, not_aborts_ok, not_false_eq_true, true_and]
      constructor
      · rintro ⟨f, hf, h⟩
        obtain ⟨hrest, new, hnew, rfl⟩ := (ih (by rw [hn, count_tally (coarse_of_findingOf hf)])).1 h
        rw [List.length_append, List.length_singleton] at hnew
        exact ⟨hrest, f :: new, ⟨f, new, hf, hnew, rfl⟩, by simp⟩
      · rintro ⟨hrest, _, ⟨f, new, hf, hnew, rfl⟩, rfl⟩
        refine ⟨f, hf, (ih (by rw [hn, count_tally (coarse_of_findingOf hf)])).2 ⟨hrest, new, ?_, by simp⟩⟩
        rwa [List.length_append, List.length_singleton]
    | error fault =>
      rw [readings_cons_of_error hr]
      cases fault with
      | record fault =>
        have hrecord : ¬ Aborts (Except.error (.record fault) : Except Fault ToolFinding) := by
          rintro ⟨g, hg, hne⟩
          exact hne fault (Except.error.inj hg).symm
        refine (ih (by rw [hn, recordParseFailure_tally])).trans ?_
        simp only [hrecord, not_false_eq_true, true_and, List.append_assoc, List.singleton_append]
      | _ => exact ⟨nofun, fun h => absurd ⟨_, rfl, nofun⟩ h.1.1⟩

theorem tally_nil : tally t x [] [] = Diagnostics.empty := by
  simp [tally, gapLabels, Diagnostics.canonical, Diagnostics.distinct, Diagnostics.ascending, Diagnostics.empty]

/-- The findings and diagnostics of the records that an output was cut into. -/
theorem addRecords_none_eq_ok_iff {version : String} {m : Normalized} :
    addRecords t x root run ⟨t.key, version, [], .empty⟩ 0 records = .ok m ↔
      (∀ r ∈ records, ¬ Aborts (t.format.parse run r)) ∧ ∃ new,
        findingsOf t x root 0 (readings t run records) = .ok new ∧
        m = ⟨t.key, version, new, tally t x new (refusals t run 0 records)⟩ :=
  addRecords_eq_ok_iff (n := ⟨t.key, version, [], .empty⟩) tally_nil.symm

/-- What is normalized is findings, and diagnostics that are determined by them and by messages. -/
theorem tallied_of_ofOutput {output : String} {version : Option String} {n : Normalized}
    (h : ofOutput t x root output version = .ok n) : ∃ raws messages,
      findingsOf t x root 0 raws = .ok n.findings ∧ n.diagnostics = tally t x n.findings messages := by
  obtain ⟨v, -, h⟩ := bind_eq_ok.1 h
  simp only at h
  split at h
  · cases h
    exact ⟨[], [], rfl, tally_nil.symm⟩
  · split at h
    next records hsplit =>
      obtain ⟨-, new, hnew, rfl⟩ := addRecords_none_eq_ok_iff.1 h
      exact ⟨_, _, hnew, rfl⟩
    next r hsplit =>
      cases h
      refine ⟨[], [t.key ++ ": " ++ r.message], rfl, ?_⟩
      rw [← List.nil_append [_], ← recordParseFailure_tally, tally_nil]
    next => cases h

end Normalized

end Assay
