import Assay.Invocation
import Assay.Proofs.Confidences
import Assay.Proofs.Reordering
import Assay.Settings

/-!
# Accepted settings

Settings that are accepted have been checked: the tolerance, the discount and the time that a tool may take
are in their ranges, wherever they were set. Two things escape the check. A threshold that is no number is not
below zero, and so passes; it is in its range exactly if the text that decides it is not the word for no number.
And the seconds that the file sets for one tool are only read; a tool has a time limit exactly if these are positive
(`load_inRange`).
-/

namespace Assay

/-! ## The word for no number -/

namespace Numeral

/-- Whether a text is the word for no number, in any case of letters, perhaps with a sign and between blanks. -/
def IsNaNWord (s : String) : Prop := (sign (core s.toList)).2.map Char.toLower = "nan".toList

instance (s : String) : Decidable (IsNaNWord s) := inferInstanceAs (Decidable (_ = _))

/-- Of all that is read as a decimal, only the word for no number is none. -/
theorem isNaN_of_readFloat {s : String} {x : Float} (h : readFloat s = .ok x) :
    (Binary64.parts x).isNaN = true ↔ IsNaNWord s := by
  have undefined : (Binary64.parts (0.0 / 0.0)).isNaN = true := by decide
  unfold readFloat at h
  simp only at h
  split at h
  next hword =>
    obtain rfl := Except.ok.inj h
    unfold readWord? at hword
    simp only at hword
    split at hword
    next hinf =>
      obtain rfl := Option.some.inj hword
      have other : ¬ IsNaNWord s := by
        intro hnan
        rw [IsNaNWord] at hnan
        rw [hnan] at hinf
        revert hinf
        decide
      simp [other, Binary64.isNaN_ofFields _ (Nat.le_refl _)]
    next =>
      split at hword
      next hnan =>
        obtain rfl := Option.some.inj hword
        exact iff_of_true undefined hnan
      next => cases hword
  next hword =>
    have other : ¬ IsNaNWord s := by
      intro hnan
      rw [IsNaNWord] at hnan
      rw [readWord?, hnan] at hword
      simp at hword
    split at h
    next =>
      obtain rfl := Except.ok.inj h
      simp [other, Binary64.isNaN_ofDecimal]
    next => cases h

end Numeral

/-- There is a limit exactly if its seconds are positive. -/
theorem TimeLimit.isSome_micros_ofValue (n : ℤ) : (ofValue (.int n)).micros.isSome = true ↔ 0 < n := by
  by_cases h : 0 < n
  · simp [ofValue, h]
  · simp [ofValue, h]

namespace Settings

/-! ## Values of settings -/

section
variable {what : String} {v : Value} {n : ℤ} {x : Float}

theorem integer_eq_ok (h : integer what v = .ok n) :
    ∃ t, v.toText? = .ok t ∧ Numeral.readInt (Text.strip t) = .ok n := by
  unfold integer at h
  simp only at h
  split at h
  next => obtain ⟨_, -, h⟩ := bind_eq_ok.1 h; cases h
  next => obtain ⟨_, -, h⟩ := bind_eq_ok.1 h; cases h
  next read =>
    obtain rfl := Except.ok.inj h
    exact bind_eq_ok.1 read

theorem number_eq_ok (h : number what v = .ok x) :
    ∃ t, v.toText? = .ok t ∧ Numeral.readFloat (Text.strip t) = .ok x := by
  unfold number at h
  simp only at h
  split at h
  next => obtain ⟨_, -, h⟩ := bind_eq_ok.1 h; cases h
  next => obtain ⟨_, -, h⟩ := bind_eq_ok.1 h; cases h
  next read =>
    obtain rfl := Except.ok.inj h
    exact bind_eq_ok.1 read

/-- Null is no integer. -/
theorem integer_null : integer what .null ≠ .ok n := by
  intro h
  obtain ⟨t, ht, hn⟩ := integer_eq_ok h
  obtain rfl : "None" = t := Except.ok.inj ht
  have hnone : (Numeral.readInt (Text.strip "None")).toOption = none := by decide
  rw [hn] at hnone
  cases hnone

/-- Whether the text of a value is the word for no number. -/
def SpellsNaN (v : Value) : Prop := ∃ t, v.toText? = .ok t ∧ Numeral.IsNaNWord (Text.strip t)

theorem isNaN_of_number (h : number what v = .ok x) : (Binary64.parts x).isNaN = true ↔ SpellsNaN v := by
  obtain ⟨t, ht, hx⟩ := number_eq_ok h
  rw [Numeral.isNaN_of_readFloat hx]
  constructor
  · exact fun hword => ⟨t, ht, hword⟩
  · rintro ⟨u, hu, hword⟩
    obtain rfl := Except.ok.inj (ht.symm.trans hu)
    exact hword

end

/-! ## Single tools -/

/-- What a table says of a tool. -/
def toolIn (ts : List (String × ToolSettings)) (name : String) : ToolSettings := (ts.lookup name).getD .unset

/-- The seconds that are set for a tool, if they are. -/
def timeoutIn (ts : List (String × ToolSettings)) (name : String) : Option ℤ := ((ts.lookup name).getD .unset).timeout

/-- Tables that differ in commands only. -/
def SameRest (ts ts' : List (String × ToolSettings)) : Prop :=
  ∀ name, (toolIn ts name).version = (toolIn ts' name).version ∧ timeoutIn ts name = timeoutIn ts' name

section
variable {name other : String} {t : ToolSettings} {ts : List (String × ToolSettings)} {command : Option String}

theorem lookup_putTool_self : (putTool name t ts).lookup name = some t := by
  induction ts with
  | nil => simp [putTool]
  | cons entry rest ih =>
    obtain ⟨n, old⟩ := entry
    by_cases h : n = name
    · simp [putTool, h]
    · rw [putTool, if_neg h, List.lookup_cons, beq_eq_false_iff_ne.2 (Ne.symm h)]
      exact ih

theorem lookup_putTool_of_ne (h : other ≠ name) : (putTool name t ts).lookup other = ts.lookup other := by
  have hne : (other == name) = false := beq_eq_false_iff_ne.2 h
  induction ts with
  | nil => simp [putTool, List.lookup_cons, hne]
  | cons entry rest ih =>
    obtain ⟨n, old⟩ := entry
    by_cases hn : n = name
    · rw [putTool, if_pos hn, List.lookup_cons, List.lookup_cons, hn, hne]
    · rw [putTool, if_neg hn, List.lookup_cons, List.lookup_cons, ih]

/-- A command leaves the rest of a tool, and all other tools, as they are. -/
theorem toolIn_putCommand : toolIn (putCommand other command ts) name =
    if name = other then { toolIn ts name with command } else toolIn ts name := by
  unfold toolIn putCommand
  split
  next h => rw [h, lookup_putTool_self, Option.getD_some]
  next h => rw [lookup_putTool_of_ne h]

theorem SameRest.refl (ts : List (String × ToolSettings)) : SameRest ts ts := fun _ => ⟨rfl, rfl⟩

theorem SameRest.trans {ts' ts'' : List (String × ToolSettings)} (h : SameRest ts ts') (h' : SameRest ts' ts'') :
    SameRest ts ts'' := fun name => ⟨(h name).1.trans (h' name).1, (h name).2.trans (h' name).2⟩

theorem sameRest_putCommand : SameRest (putCommand other command ts) ts := by
  intro name
  have heq := @toolIn_putCommand name other ts command
  change _ ∧ (toolIn _ name).timeout = (toolIn ts name).timeout
  rw [heq]
  split <;> exact ⟨rfl, rfl⟩

theorem SameRest.foldl {α : Type} {f : List (String × ToolSettings) → α → List (String × ToolSettings)}
    (step : ∀ ts a, SameRest (f ts a) ts) (l : List α) : SameRest (l.foldl f ts) ts := by
  induction l generalizing ts with
  | nil => exact .refl ts
  | cons a l ih => exact ih.trans (step ts a)

/-- A variable gives commands only. -/
theorem sameRest_addVariable {known : List String} {v : String × String} : SameRest (addVariable known ts v) ts := by
  unfold addVariable
  split
  · refine .foldl (fun ts other => ?_) _
    split
    · exact sameRest_putCommand
    · exact .refl ts
  · exact .refl ts

/-- Results that are kept by name are found by name. -/
theorem lookup_of_mapM {ε α : Type} {f : String → Except ε α} {names : List String} {r : List (String × α)}
    (h : (names.mapM fun n => do return (n, ← f n)) = .ok r) :
    (name ∈ names → ∃ a, f name = .ok a ∧ r.lookup name = some a) ∧ (name ∉ names → r.lookup name = none) := by
  induction mapM_eq_ok.1 h with
  | nil => simp
  | @cons n entry names r hentry hrest ih =>
    obtain ⟨ih, ihnot⟩ := ih (mapM_eq_ok.2 hrest)
    obtain ⟨a, ha, he⟩ := bind_eq_ok.1 hentry
    obtain rfl := pure_eq_ok.1 he
    by_cases hn : name = n
    · subst hn
      simp [ha]
    · simp only [List.mem_cons, hn, false_or, List.lookup_cons, beq_eq_false_iff_ne.2 hn]
      exact ⟨ih, ihnot⟩

end

/-! ## What the file says of a tool -/

/-- What a mapping of tools says of a tool. -/
def entryOf (raw : Value) (name : String) : Value := (raw.get name).orElse (.map [])

/-- What a mapping of tools says of the seconds of a tool. -/
def secondsOf (raw : Value) (name : String) : Value := ((raw.get name).orElse (.map [])).get "timeout_seconds"

/-- The name that the seconds of a tool have in messages. -/
def secondsName (name : String) : String := "tools." ++ name ++ ".timeout_seconds"

/-- The seconds of a tool are as the file has them: unset, or an integer of any sign. -/
def ReadsSeconds (v : Value) (name : String) (timeout : Option ℤ) : Prop :=
  v.isNull = true ∧ timeout = none ∨
    v.isNull = false ∧ ∃ n, integer (secondsName name) v = .ok n ∧ timeout = some n

/-- A text is as the file has it: unset unless the value counts as given. -/
def ReadsText (v : Value) (text : Option String) : Prop :=
  v.isTruthy = false ∧ text = none ∨ v.isTruthy = true ∧ ∃ t, v.toText? = .ok t ∧ text = some t

/-- Everything that is set for a tool is as the file has it. -/
structure ReadsTool (raw : Value) (name : String) (t : ToolSettings) : Prop where
  command : ReadsText ((entryOf raw name).get "command") t.command
  version : ReadsText ((entryOf raw name).get "version") t.version
  timeout : ReadsSeconds (secondsOf raw name) name t.timeout

section
variable {raw : Value} {env : Environment} {o : Overrides} {name : String} {names : List String} {t : ToolSettings}
  {ts : List (String × ToolSettings)}

/-- The tools of the table are those that the file or the user names. -/
theorem mem_toolNames (h : toolNames raw o = .ok names) : name ∈ names ↔
    (∃ entry ∈ raw.entries?.getD [], entry.1.toText? = .ok name) ∨ name ∈ o.toolCommands.map (·.1) := by
  obtain ⟨inFile, hfile, h⟩ := bind_eq_ok.1 h
  obtain rfl := pure_eq_ok.1 h
  rw [List.mem_mergeSort, List.mem_eraseDups, List.mem_append, mem_of_mapM_eq_ok hfile]
  have hread : ∀ entry : Value × Value,
      entry.1.toText?.mapError Fault.numeral = .ok name ↔ entry.1.toText? = .ok name := by
    intro entry
    cases entry.1.toText? <;> simp [Except.mapError]
  simp only [hread]

/-- The file says nothing of a tool that is not among the named ones. -/
theorem get?_of_not_mem_toolNames (h : toolNames raw o = .ok names) (hname : name ∉ names) : raw.get? name = none := by
  rw [mem_toolNames h, not_or] at hname
  rw [Value.get?]
  cases hes : raw.entries? with
  | none => rfl
  | some es =>
    rw [hes] at hname
    refine Value.lookupText?_of_not_mem fun hkey => hname.1 ?_
    obtain ⟨entry, hentry, hk⟩ := List.mem_map.1 hkey
    exact ⟨entry, hentry, by rw [hk]; rfl⟩

theorem readsText_of_eq_ok {v : Value} {text : Option String}
    (h : (if v.isTruthy then (v.toText?.map some).mapError Fault.numeral else .ok none) = .ok text) :
    ReadsText v text := by
  split at h
  next htruthy =>
    cases hv : v.toText? with
    | ok t =>
      rw [hv] at h
      exact .inr ⟨htruthy, t, hv, (Except.ok.inj h).symm⟩
    | error e =>
      rw [hv] at h
      cases h
  next hnot => exact .inl ⟨Bool.eq_false_iff.2 hnot, (Except.ok.inj h).symm⟩

theorem reads_of_toolOf (h : toolOf raw name = .ok t) : ReadsTool raw name t := by
  unfold toolOf at h
  simp only at h
  split at h
  · cases h
  obtain ⟨command, hcommand, h⟩ := bind_eq_ok.1 h
  obtain ⟨version, hversion, h⟩ := bind_eq_ok.1 h
  have hseconds : ∃ timeout, ReadsSeconds (secondsOf raw name) name timeout ∧ t = ⟨command, version, timeout⟩ := by
    rw [secondsOf]
    split at h
    next hnull => exact ⟨none, .inl ⟨hnull, rfl⟩, (pure_eq_ok.1 h).symm⟩
    next hgiven =>
      obtain ⟨timeout, htimeout, h⟩ := bind_eq_ok.1 h
      obtain ⟨n, hn, rfl⟩ := map_eq_ok.1 htimeout
      exact ⟨some n, .inr ⟨Bool.eq_false_iff.2 hgiven, n, hn, rfl⟩, (pure_eq_ok.1 h).symm⟩
  obtain ⟨timeout, htimeout, rfl⟩ := hseconds
  exact ⟨readsText_of_eq_ok hcommand, readsText_of_eq_ok hversion, htimeout⟩

/-- A tool that the file does not speak of is unset. -/
theorem readsTool_unset (h : raw.get? name = none) : ReadsTool raw name .unset := by
  have hsilent : raw.get name = .null := by rw [Value.get, h]; rfl
  have hentry : entryOf raw name = .map [] := by rw [entryOf, hsilent]; rfl
  have hseconds : secondsOf raw name = .null := by rw [secondsOf, hsilent]; rfl
  refine ⟨?_, ?_, ?_⟩
  · rw [hentry]
    exact .inl ⟨rfl, rfl⟩
  · rw [hentry]
    exact .inl ⟨rfl, rfl⟩
  · rw [hseconds]
    exact .inl ⟨rfl, rfl⟩

/-- The table that the file alone makes, to which variables and the user add commands. -/
theorem toolsOf_eq_ok (h : toolsOf raw env o = .ok ts) : ∃ inFile : List (String × ToolSettings),
    (∀ name, ReadsTool raw name (toolIn inFile name)) ∧
    (∀ name, name ∈ inFile.map (·.1) ↔
      (∃ entry ∈ raw.entries?.getD [], entry.1.toText? = .ok name) ∨ name ∈ o.toolCommands.map (·.1)) ∧
    ts = o.toolCommands.foldl (fun ts c => putCommand c.1 c.2 ts) (env.foldl (addVariable o.knownTools) inFile) := by
  obtain ⟨names, hnames, h⟩ := bind_eq_ok.1 h
  obtain ⟨inFile, hfile, h⟩ := bind_eq_ok.1 h
  refine ⟨inFile, fun name => ?_, fun name => ?_, (pure_eq_ok.1 h).symm⟩
  · obtain ⟨hmem, hnot⟩ := lookup_of_mapM hfile
    by_cases hname : name ∈ names
    · obtain ⟨t, ht, hlookup⟩ := hmem hname
      rw [toolIn, hlookup]
      exact reads_of_toolOf ht
    · rw [toolIn, hnot hname]
      exact readsTool_unset (get?_of_not_mem_toolNames hnames hname)
  · rw [← mem_toolNames hnames]
    have hkeys : inFile.map (·.1) = names := by
      refine map_eq_of_forall₂ ((mapM_eq_ok.1 hfile).imp fun n entry hentry => ?_).flip
      obtain ⟨t, -, he⟩ := bind_eq_ok.1 hentry
      exact (congrArg Prod.fst (pure_eq_ok.1 he)).symm
    rw [hkeys]

/-- Version and seconds of each tool are as the file has them, whatever commands are set. -/
theorem reads_of_toolsOf (h : toolsOf raw env o = .ok ts) (name : String) :
    ReadsText ((entryOf raw name).get "version") (toolIn ts name).version ∧
      ReadsSeconds (secondsOf raw name) name (timeoutIn ts name) := by
  obtain ⟨inFile, hreads, -, hts⟩ := toolsOf_eq_ok h
  have same : SameRest ts inFile := by
    rw [hts]
    exact (SameRest.foldl (fun _ _ => sameRest_putCommand) _).trans (.foldl (fun _ _ => sameRest_addVariable) _)
  rw [(same name).1, (same name).2]
  exact ⟨(hreads name).version, (hreads name).timeout⟩

end

/-! ## All settings -/

section
variable {d : Disk} {file : Option Path} {doc : Value} {env : Environment} {o : Overrides} {s t : Settings}

/-- A part of the document, empty unless it counts as given. -/
def sectionOf (doc : Value) (key : String) : Value := (doc.get key).orElse (.map [])

theorem eq_of_section {key : String} {v : Value} (h : section? doc key = some v) : v = sectionOf doc key := by
  unfold section? at h
  simp only at h
  split at h
  · exact (Option.some.inj h).symm
  · cases h

/-- Settings pass the check if the first three are in range and the threshold is not below zero. -/
theorem checked_eq_ok_iff : checked t = .ok s ↔ t = s ∧ 0 ≤ t.tolerance ∧
    (0 < t.coarseDiscount ∧ t.coarseDiscount ≤ 1) ∧ 0 < t.timeout ∧ ¬ t.threshold < 0 := by
  have hdiscount : MatchSettings.admitsDiscount t.coarseDiscount = true ↔
      0 < t.coarseDiscount ∧ t.coarseDiscount ≤ 1 := by
    rw [MatchSettings.admitsDiscount, Bool.and_eq_true, decide_eq_true_iff, decide_eq_true_iff]
    exact Iff.rfl
  rw [← hdiscount]
  unfold checked
  by_cases htolerance : t.tolerance < 0
  · simp [htolerance, Int.not_le.2 htolerance]
  cases hd : MatchSettings.admitsDiscount t.coarseDiscount
  · simp [htolerance]
  by_cases htimeout : t.timeout ≤ 0
  · simp [htolerance, htimeout, Int.not_lt.2 htimeout]
  by_cases hthreshold : t.threshold < 0
  · simp [htolerance, htimeout, hthreshold]
  · simp [htolerance, htimeout, hthreshold, Int.not_lt.1 htolerance, Int.not_le.1 htimeout]

/-- The value that decides the threshold. -/
def thresholdGiven (doc : Value) (env : Environment) (o : Overrides) : Value :=
  pick o.threshold (env.given? (variableName "REGRESSION_THRESHOLD"))
    (((doc.get "regression").orElse (.map [])).get? "threshold") (.float 0)

/-- What the document says of the seconds of a tool. -/
def secondsGiven (doc : Value) (name : String) : Value := secondsOf ((doc.get "tools").orElse (.map [])) name

/-- Everything that accepted settings are made of: each is the value that decides it, and they are in range. -/
structure IsResolved (doc : Value) (env : Environment) (o : Overrides) (s : Settings) : Prop where
  tolerance : integer "tolerance" (pick o.tolerance (env.given? (variableName "TOLERANCE"))
    ((sectionOf doc "matching").get? "tolerance") (.int MatchSettings.defaultTolerance)) = .ok s.tolerance
  coarseDiscount : number "coarse_discount" (pick o.coarseDiscount (env.given? (variableName "COARSE_DISCOUNT"))
    ((sectionOf doc "matching").get? "coarse_discount") (.float MatchSettings.defaultDiscount)) = .ok s.coarseDiscount
  timeout : integer "timeout_seconds" (pick o.timeout (env.given? (variableName "TIMEOUT"))
    (doc.get? "timeout_seconds") (.int defaultTimeout)) = .ok s.timeout
  store : ∃ t, (pick o.store (env.given? (variableName "STORE")) (doc.get? "store")
    (.text defaultStore)).toText? = .ok t ∧ s.store = Path.ofText t
  threshold : number "regression threshold" (thresholdGiven doc env o) = .ok s.threshold
  tools : toolsOf (sectionOf doc "tools") env o = .ok s.tools
  inRange : 0 ≤ s.tolerance ∧ (0 < s.coarseDiscount ∧ s.coarseDiscount ≤ 1) ∧ 0 < s.timeout ∧ ¬ s.threshold < 0

theorem isResolved_of_resolve (h : resolve doc env o = .ok s) : IsResolved doc env o s := by
  unfold resolve at h
  split at h
  rotate_left
  · cases h
  next matching hmatching =>
    split at h
    rotate_left
    · cases h
    next regression hregression =>
      split at h
      rotate_left
      · cases h
      next raw hraw =>
        obtain ⟨tools, htools, h⟩ := bind_eq_ok.1 h
        obtain ⟨tolerance, htolerance, h⟩ := bind_eq_ok.1 h
        obtain ⟨discount, hdiscount, h⟩ := bind_eq_ok.1 h
        obtain ⟨timeout, htimeout, h⟩ := bind_eq_ok.1 h
        obtain ⟨store, hstore, h⟩ := bind_eq_ok.1 h
        obtain ⟨threshold, hthreshold, h⟩ := bind_eq_ok.1 h
        obtain ⟨rfl, hchecked⟩ := checked_eq_ok_iff.1 h
        rw [eq_of_section hmatching] at htolerance hdiscount
        rw [eq_of_section hregression] at hthreshold
        rw [eq_of_section hraw] at htools
        refine ⟨htolerance, hdiscount, htimeout, ⟨store, ?_, rfl⟩, hthreshold, htools, hchecked⟩
        exact mapError_eq_ok.1 hstore

/-- A tool has its own seconds, be they positive or not, or else those of the run, which are positive. -/
theorem toolTimeout_pos_iff {name : String} {v : Value} (hs : 0 < s.timeout)
    (h : ReadsSeconds v name (timeoutIn s.tools name)) :
    0 < s.toolTimeout name ↔ ∀ n, integer (secondsName name) v = .ok n → 0 < n := by
  have heq : s.toolTimeout name = (timeoutIn s.tools name).getD s.timeout := rfl
  rw [heq]
  rcases h with ⟨hnull, hunset⟩ | ⟨-, n, hn, hset⟩
  · obtain rfl : v = .null := by
      cases v <;> first | rfl | cases hnull
    rw [hunset]
    exact iff_of_true hs fun n hn => absurd hn integer_null
  · rw [hset, hn]
    constructor
    · rintro hpos m hm
      exact Except.ok.inj hm ▸ hpos
    · exact fun hall => hall n rfl

/-- **Ranges of accepted settings.** The tolerance, the discount and the seconds of a run are in range. The threshold
is unless its text is the word for no number, and then no fall of recall exceeds it. The seconds of a tool are unless
the file sets some that are not positive, and then there is no limit to its time. -/
theorem load_inRange (h : load d file env o = .ok s) :
    0 ≤ s.tolerance ∧ (0 < s.coarseDiscount ∧ s.coarseDiscount ≤ 1) ∧ 0 < s.timeout ∧
    ∃ doc, document d file = .ok doc ∧
      (0 ≤ s.threshold ↔ ¬ SpellsNaN (thresholdGiven doc env o)) ∧
      (SpellsNaN (thresholdGiven doc env o) → ∀ fall : Float, ¬ s.threshold < fall) ∧
      ∀ name, (0 < s.toolTimeout name ↔ ∀ n, integer (secondsName name) (secondsGiven doc name) = .ok n → 0 < n) ∧
        ((TimeLimit.ofValue (.int (s.toolTimeout name))).micros.isSome = true ↔ 0 < s.toolTimeout name) := by
  obtain ⟨doc, hdoc, h⟩ := bind_eq_ok.1 h
  have hresolved := isResolved_of_resolve h
  obtain ⟨htolerance, hdiscount, htimeout, hlow⟩ := hresolved.inRange
  have hthreshold := hresolved.threshold
  have htools := fun name => (reads_of_toolsOf hresolved.tools name).2
  have hnan := isNaN_of_number hthreshold
  refine ⟨htolerance, hdiscount, htimeout, doc, hdoc, ?_, fun hspells fall hlt => ?_, fun name => ⟨?_, ?_⟩⟩
  · rw [Binary64.nonneg_iff_of_not_neg hlow, ← hnan, Bool.not_eq_true]
  · rw [Binary64.isNaN_of_lt_left hlt] at hnan
    exact Bool.false_ne_true (hnan.2 hspells)
  · exact toolTimeout_pos_iff htimeout (htools name)
  · exact TimeLimit.isSome_micros_ofValue _

end

/-! ## A file that sets the seconds of one tool -/

namespace OneTool

/-- The file with the seconds that it sets. -/
def source (seconds : String) : List UInt8 :=
  Utf8.encode ("\x7b\"tools\":\x7b\"gcc\":\x7b\"timeout_seconds\":" ++ seconds ++ "\x7d\x7d\x7d")

/-- A disk with that file only. -/
def disk (seconds : String) : Disk := { top := .dir [("bench.json", .file (source seconds))], cwd := [] }

/-- The place of the file. -/
def file : Option Path := some (Path.ofNames ["bench.json"])

/-- A variable for the threshold. -/
def environment (threshold : String) : Environment := [(variableName "REGRESSION_THRESHOLD", threshold)]

end OneTool

open OneTool

/-- A minute and a half for one tool and a threshold of five percent are in range. -/
theorem load_inRange_oneTool : ∃ s, load (disk "90") file (environment "0.05") .none = .ok s ∧
    0 ≤ s.threshold ∧ 0 < s.toolTimeout "gcc" := by
  have hload : ((load (disk "90") file (environment "0.05") .none).toOption.any fun _ => true) = true := by decide +kernel
  have hread : ((document (disk "90") file).toOption.any fun doc =>
      (integer (secondsName "gcc") (secondsGiven doc "gcc")).toOption == some 90) = true := by decide +kernel
  obtain ⟨s, hs, -⟩ := (Option.any_eq_true ..).1 hload
  obtain ⟨-, -, -, doc, hdoc, hthreshold, -, htools⟩ := load_inRange (eq_ok_of_toOption hs)
  refine ⟨s, eq_ok_of_toOption hs, hthreshold.2 ?_, (htools "gcc").1.2 fun n hn => ?_⟩
  · have hgiven : thresholdGiven doc (environment "0.05") .none = .text "0.05" := rfl
    rintro ⟨t, ht, hword⟩
    rw [hgiven] at ht
    obtain rfl : "0.05" = t := Except.ok.inj ht
    revert hword
    decide +kernel
  · rw [hdoc] at hread
    have hninety : (integer (secondsName "gcc") (secondsGiven doc "gcc")).toOption = some 90 := beq_iff_eq.1 hread
    rw [hn] at hninety
    obtain rfl := Option.some.inj hninety
    decide

/-- No number as the threshold and no seconds for a tool are accepted, too. -/
theorem load_out_of_range : ∃ s, load (disk "0") file (environment "nan") .none = .ok s ∧
    ¬ 0 ≤ s.threshold ∧ ¬ 0 < s.toolTimeout "gcc" ∧
    (TimeLimit.ofValue (.int (s.toolTimeout "gcc"))).micros = none := by
  have hload : ((load (disk "0") file (environment "nan") .none).toOption.any fun s =>
      !decide (0 ≤ s.threshold) && s.toolTimeout "gcc" == 0) = true := by decide +kernel
  obtain ⟨s, hs, hout⟩ := (Option.any_eq_true ..).1 hload
  rw [Bool.and_eq_true, Bool.not_eq_true', decide_eq_false_iff_not, beq_iff_eq] at hout
  obtain ⟨hthreshold, hzero⟩ := hout
  refine ⟨s, eq_ok_of_toOption hs, hthreshold, ?_, ?_⟩
  · rw [hzero]
    decide
  · rw [hzero]
    rfl

end Settings

end Assay
