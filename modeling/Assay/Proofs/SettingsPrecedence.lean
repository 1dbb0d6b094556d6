import Assay.Proofs.AcceptedSettings

/-!
# The precedence of settings

Each setting is decided by the first of four places that speaks of it: the user, the environment, the file, the
defaults (`Decides`). Commands of tools are decided in the same way (`DecidesCommand`), though the table of tools is
made by overwriting: variable after variable, each for all tools that it belongs to, while tools that are known but
not in the file are added on the way. What one variable does to a table (`commandIn_addVariable`) leaves the same tools
to be spoken of, so all variables together give every such tool the command that its own variable holds
(`commandIn_foldl_addVariable`). Versions and seconds are those of the file throughout.
-/

namespace Assay.Settings

/-! ## Single settings -/

/-- The value that decides a setting: what the user gives, else the text of a variable unless that is unset or empty,
else the entry of the file, be it null, else the default. -/
inductive Decides (given : Value) (inEnv : Option String) (entry : Option Value) (default : Value) : Value → Prop
  | ofUser : given.isNull = false → Decides given inEnv entry default given
  | ofVariable {text : String} : given.isNull = true → inEnv = some text → text ≠ "" →
      Decides given inEnv entry default (.text text)
  | ofFile {v : Value} : given.isNull = true → (∀ text, inEnv = some text → text = "") → entry = some v →
      Decides given inEnv entry default v
  | ofDefault : given.isNull = true → (∀ text, inEnv = some text → text = "") → entry = none →
      Decides given inEnv entry default default

section
variable {env : Environment} {name key text : String}

theorem given?_eq_some_iff : env.given? name = some text ↔ env.get? name = some text ∧ text ≠ "" := by
  simp [Environment.given?, Option.filter_eq_some_iff]

theorem given?_eq_none_iff : env.given? name = none ↔ ∀ text, env.get? name = some text → text = "" := by
  simp [Environment.given?, Option.filter_eq_none_iff]

theorem given?_cons_of_ne (h : name ≠ key) : Environment.given? ((key, text) :: env) name = env.given? name := by
  rw [Environment.given?, Environment.given?, Environment.get?, Environment.get?, List.lookup_cons,
    beq_eq_false_iff_ne.2 h]

theorem given?_cons_self :
    Environment.given? ((key, text) :: env) key = if text = "" then none else some text := by
  by_cases h : text = "" <;> simp [Environment.given?, Environment.get?, h]

theorem lookup_eq_none_iff_not_mem {α : Type} {l : List (String × α)} :
    l.lookup name = none ↔ name ∉ l.map (·.1) := by
  rw [List.lookup_eq_none_iff, List.mem_map]
  constructor
  · rintro h ⟨w, hw, rfl⟩
    exact bne_iff_ne.1 (h w hw) rfl
  · exact fun h w hw => bne_iff_ne.2 fun e => h ⟨w, hw, e.symm⟩

theorem given?_eq_none_of_not_mem (h : name ∉ env.map (·.1)) : env.given? name = none := by
  rw [Environment.given?, Environment.get?, lookup_eq_none_iff_not_mem.2 h]
  rfl

theorem decides_pick (given : Value) (entry : Option Value) (default : Value) :
    Decides given (env.get? name) entry default (pick given (env.given? name) entry default) := by
  unfold pick
  cases hgiven : given.isNull with
  | false => exact .ofUser hgiven
  | true =>
    cases hvariable : env.given? name with
    | some text => exact .ofVariable hgiven (given?_eq_some_iff.1 hvariable).1 (given?_eq_some_iff.1 hvariable).2
    | none =>
      cases hentry : entry with
      | some v => exact .ofFile hgiven (given?_eq_none_iff.1 hvariable) rfl
      | none => exact .ofDefault hgiven (given?_eq_none_iff.1 hvariable) rfl

end

/-! ## Commands of tools -/

/-- The command that is set for a tool, if one is. -/
def commandIn (ts : List (String × ToolSettings)) (name : String) : Option String := (toolIn ts name).command

/-- A tool that a variable may give a command: one for which something is set, or a known one. -/
def IsSpokenOf (known : List String) (ts : List (String × ToolSettings)) (name : String) : Prop :=
  name ∈ ts.map (·.1) ∨ name ∈ known

instance (known : List String) (ts : List (String × ToolSettings)) (name : String) :
    Decidable (IsSpokenOf known ts name) := inferInstanceAs (Decidable (_ ∨ _))

section
variable {name other : String} {t : ToolSettings} {ts : List (String × ToolSettings)} {command : Option String}
  {known names : List String} {v : String × String}

theorem mem_keys_putTool : name ∈ (putTool other t ts).map (·.1) ↔ name = other ∨ name ∈ ts.map (·.1) := by
  induction ts with
  | nil => simp [putTool]
  | cons entry rest ih =>
    obtain ⟨n, old⟩ := entry
    by_cases h : n = other
    · simp [putTool, h]
    · rw [putTool, if_neg h, List.map_cons, List.mem_cons, ih, List.map_cons, List.mem_cons, or_left_comm]

theorem commandIn_putCommand :
    commandIn (putCommand other command ts) name = if name = other then command else commandIn ts name := by
  rw [commandIn, toolIn_putCommand]
  split <;> rfl

/-- A variable goes through tools that it may belong to. -/
theorem commandIn_foldl_putCommand :
    commandIn (names.foldl (fun ts n => if commandVariable n = v.1 then putCommand n (some v.2) ts else ts) ts) name =
      if name ∈ names ∧ commandVariable name = v.1 then some v.2 else commandIn ts name := by
  induction names generalizing ts with
  | nil => simp
  | cons n names ih =>
    rw [List.foldl_cons, ih]
    by_cases hn : name = n
    · by_cases hv : commandVariable n = v.1 <;> simp [hn, hv, commandIn_putCommand]
    · by_cases hv : commandVariable n = v.1 <;> simp [hn, hv, commandIn_putCommand]

theorem mem_keys_foldl_putCommand :
    name ∈ (names.foldl (fun ts n => if commandVariable n = v.1 then putCommand n (some v.2) ts else ts) ts).map (·.1) ↔
      name ∈ ts.map (·.1) ∨ name ∈ names ∧ commandVariable name = v.1 := by
  induction names generalizing ts with
  | nil => simp
  | cons n names ih =>
    rw [List.foldl_cons, ih, List.mem_cons]
    split
    next hv =>
      rw [putCommand, mem_keys_putTool]
      by_cases hn : name = n
      · simp [hn, hv]
      · simp [hn]
    next hv =>
      by_cases hn : name = n
      · simp [hn, hv]
      · simp [hn]

theorem holdsCommand_commandVariable (name : String) : holdsCommand (commandVariable name) = true := by
  simp only [holdsCommand, commandVariable, variableName, Bool.and_eq_true, List.isPrefixOf_iff_prefix,
    List.isSuffixOf_iff_suffix, String.toList_append]
  exact ⟨List.prefix_append .., (List.suffix_append ..).trans (List.suffix_append ..)⟩

/-- What one variable does to a table. -/
theorem commandIn_addVariable : commandIn (addVariable known ts v) name =
    if IsSpokenOf known ts name ∧ commandVariable name = v.1 ∧ v.2 ≠ "" then some v.2 else commandIn ts name := by
  unfold addVariable
  by_cases hv : commandVariable name = v.1
  · have hholds : holdsCommand v.1 = true := hv ▸ holdsCommand_commandVariable name
    by_cases hempty : v.2 = ""
    · simp [hholds, hempty]
    · rw [hholds, bne_iff_ne.2 hempty, Bool.and_self, if_pos rfl, commandIn_foldl_putCommand]
      refine if_congr ?_ rfl rfl
      simp [IsSpokenOf, hv, hempty]
  · split
    · simp [commandIn_foldl_putCommand, hv]
    · simp [hv]

/-- A variable adds no tool that was not spoken of. -/
theorem isSpokenOf_addVariable : IsSpokenOf known (addVariable known ts v) name ↔ IsSpokenOf known ts name := by
  unfold addVariable IsSpokenOf
  split
  · rw [mem_keys_foldl_putCommand, List.mem_append]
    tauto
  · exact Iff.rfl

/-- What all variables do to a table. -/
theorem commandIn_foldl_addVariable {env : Environment} (henv : (env.map (·.1)).Nodup) (name : String) :
    commandIn (env.foldl (addVariable known) ts) name =
      (if IsSpokenOf known ts name then env.given? (commandVariable name) else none).or (commandIn ts name) := by
  induction env generalizing ts with
  | nil => simp [Environment.given?, Environment.get?]
  | cons v env ih =>
    obtain ⟨key, text⟩ := v
    obtain ⟨hv, henv⟩ := List.nodup_cons.1 henv
    rw [List.foldl_cons, ih henv, commandIn_addVariable]
    simp only [isSpokenOf_addVariable]
    by_cases hspoken : IsSpokenOf known ts name
    · by_cases hkey : commandVariable name = key
      · -- No later variable has the same name.
        rw [hkey, given?_eq_none_of_not_mem hv, given?_cons_self]
        by_cases hempty : text = "" <;> simp [hspoken, hempty]
      · have hother : ¬ (IsSpokenOf known ts name ∧ commandVariable name = key ∧ text ≠ "") := fun h => hkey h.2.1
        rw [given?_cons_of_ne hkey, if_neg hother]
    · simp only [hspoken, false_and, if_false]

/-- What the user's own commands do to a table. -/
theorem commandIn_foldl_user {commands : List (String × Option String)} (hcommands : (commands.map (·.1)).Nodup)
    (name : String) : commandIn (commands.foldl (fun ts c => putCommand c.1 c.2 ts) ts) name =
      (commands.lookup name).getD (commandIn ts name) := by
  induction commands generalizing ts with
  | nil => rfl
  | cons c commands ih =>
    obtain ⟨n, command⟩ := c
    obtain ⟨hn, hcommands⟩ := List.nodup_cons.1 hcommands
    rw [List.foldl_cons, ih hcommands, commandIn_putCommand, List.lookup_cons]
    by_cases h : name = n
    · -- No later command is for the same tool.
      rw [h, lookup_eq_none_iff_not_mem.2 hn, beq_self_eq_true, if_pos rfl]
      rfl
    · rw [if_neg h, beq_eq_false_iff_ne.2 h]

end

/-! ## All settings -/

/-- The file names a tool. -/
def NamedIn (raw : Value) (name : String) : Prop := ∃ entry ∈ raw.entries?.getD [], entry.1.toText? = .ok name

/-- The command of a tool: what the user gives, else the text of the tool's variable unless that is unset or empty or
the tool is neither known nor named in the file, else what the file says. -/
inductive DecidesCommand (raw : Value) (env : Environment) (o : Overrides) (name : String) : Option String → Prop
  | ofUser {command : Option String} : (name, command) ∈ o.toolCommands → DecidesCommand raw env o name command
  | ofVariable {text : String} : name ∉ o.toolCommands.map (·.1) → name ∈ o.knownTools ∨ NamedIn raw name →
      env.get? (commandVariable name) = some text → text ≠ "" → DecidesCommand raw env o name (some text)
  | ofFile {command : Option String} : name ∉ o.toolCommands.map (·.1) →
      (name ∈ o.knownTools ∨ NamedIn raw name → ∀ text, env.get? (commandVariable name) = some text → text = "") →
      ReadsText ((entryOf raw name).get "command") command → DecidesCommand raw env o name command

section
variable {d : Disk} {file : Option Path} {raw : Value} {env : Environment} {o : Overrides} {s : Settings}
  {ts : List (String × ToolSettings)}

theorem decidesCommand_of_toolsOf (henv : (env.map (·.1)).Nodup) (ho : (o.toolCommands.map (·.1)).Nodup)
    (h : toolsOf raw env o = .ok ts) (name : String) : DecidesCommand raw env o name (commandIn ts name) := by
  obtain ⟨inFile, hreads, hkeys, hts⟩ := toolsOf_eq_ok h
  rw [hts]
  have hspoken : IsSpokenOf o.knownTools inFile name ↔
      (name ∈ o.knownTools ∨ NamedIn raw name) ∨ name ∈ o.toolCommands.map (·.1) := by
    rw [IsSpokenOf, hkeys, or_comm, ← or_assoc]
    exact Iff.rfl
  rw [commandIn_foldl_user ho, commandIn_foldl_addVariable henv]
  cases huser : o.toolCommands.lookup name with
  | some command =>
    obtain ⟨before, after, hcommands, -⟩ := List.lookup_eq_some_iff.1 huser
    exact .ofUser (hcommands ▸ List.mem_append_right _ List.mem_cons_self)
  | none =>
    have hname := lookup_eq_none_iff_not_mem.1 huser
    rw [or_iff_left hname] at hspoken
    rw [Option.getD_none]
    by_cases hlisted : name ∈ o.knownTools ∨ NamedIn raw name
    · rw [if_pos (hspoken.2 hlisted)]
      cases hvariable : env.given? (commandVariable name) with
      | some text =>
        obtain ⟨hset, hfilled⟩ := given?_eq_some_iff.1 hvariable
        exact .ofVariable hname hlisted hset hfilled
      | none => exact .ofFile hname (fun _ => given?_eq_none_iff.1 hvariable) (hreads name).command
    · rw [if_neg (mt hspoken.1 hlisted), Option.none_or]
      exact .ofFile hname (fun hl => absurd hl hlisted) (hreads name).command

/-- **Precedence.** Each setting of accepted settings is read from the value that decides it. The command of a tool is
decided in the same way, and its version and seconds are those of its entry in the file. -/
theorem load_precedence (henv : (env.map (·.1)).Nodup) (ho : (o.toolCommands.map (·.1)).Nodup)
    (h : load d file env o = .ok s) : ∃ doc, document d file = .ok doc ∧
    (∃ v, Decides o.tolerance (env.get? "DEFECT_BENCH_TOLERANCE") ((sectionOf doc "matching").get? "tolerance")
      (.int MatchSettings.defaultTolerance) v ∧ integer "tolerance" v = .ok s.tolerance) ∧
    (∃ v, Decides o.coarseDiscount (env.get? "DEFECT_BENCH_COARSE_DISCOUNT")
      ((sectionOf doc "matching").get? "coarse_discount") (.float MatchSettings.defaultDiscount) v ∧
      number "coarse_discount" v = .ok s.coarseDiscount) ∧
    (∃ v, Decides o.timeout (env.get? "DEFECT_BENCH_TIMEOUT") (doc.get? "timeout_seconds") (.int defaultTimeout) v ∧
      integer "timeout_seconds" v = .ok s.timeout) ∧
    (∃ v t, Decides o.store (env.get? "DEFECT_BENCH_STORE") (doc.get? "store") (.text defaultStore) v ∧
      v.toText? = .ok t ∧ s.store = Path.ofText t) ∧
    (∃ v, Decides o.threshold (env.get? "DEFECT_BENCH_REGRESSION_THRESHOLD")
      ((sectionOf doc "regression").get? "threshold") (.float 0) v ∧
      number "regression threshold" v = .ok s.threshold) ∧
    ∀ name, DecidesCommand (sectionOf doc "tools") env o name (s.tool name).command ∧
      ReadsText ((entryOf (sectionOf doc "tools") name).get "version") (s.tool name).version ∧
      ReadsSeconds (secondsOf (sectionOf doc "tools") name) name (s.tool name).timeout := by
  obtain ⟨doc, hdoc, h⟩ := bind_eq_ok.1 h
  have hs := isResolved_of_resolve h
  obtain ⟨t, ht, hstore⟩ := hs.store
  refine ⟨doc, hdoc, ⟨_, decides_pick .., hs.tolerance⟩, ⟨_, decides_pick .., hs.coarseDiscount⟩,
    ⟨_, decides_pick .., hs.timeout⟩, ⟨_, t, decides_pick .., ht, hstore⟩, ⟨_, decides_pick .., hs.threshold⟩,
    fun name => ⟨decidesCommand_of_toolsOf henv ho hs.tools name, reads_of_toolsOf hs.tools name⟩⟩

end

/-! ## Tools that share a variable -/

namespace SharedVariable

/-- One variable for the tool of the file and one that two known tools share. -/
def environment : Environment := [("DEFECT_BENCH_GCC_CMD", "gcc -O2"), ("DEFECT_BENCH_CLANG_TIDY_CMD", "tidy")]

/-- The user gives a command for the tool of the file. -/
def overrides : Overrides :=
  { Overrides.none with knownTools := ["clang-tidy", "clang_tidy"], toolCommands := [("gcc", some "mine")] }

end SharedVariable

open OneTool (disk file)
open SharedVariable

/-- The user decides the command of the tool of the file, which keeps its seconds, and the shared variable decides the
commands of both known tools. -/
theorem load_precedence_sharedVariable : ∃ s doc, load (disk "90") file environment overrides = .ok s ∧
    document (disk "90") file = .ok doc ∧
    (∀ name, DecidesCommand (sectionOf doc "tools") environment overrides name (s.tool name).command) ∧
    ((s.tool "gcc").command = some "mine" ∧ (s.tool "gcc").timeout = some 90) ∧
    (s.tool "clang-tidy").command = some "tidy" ∧ (s.tool "clang_tidy").command = some "tidy" := by
  have hload : ((load (disk "90") file environment overrides).toOption.any fun s =>
      ((s.tool "gcc").command == some "mine" && (s.tool "gcc").timeout == some 90) &&
        ((s.tool "clang-tidy").command == some "tidy" && (s.tool "clang_tidy").command == some "tidy")) = true := by
    decide +kernel
  obtain ⟨s, hs, htools⟩ := (Option.any_eq_true ..).1 hload
  simp only [Bool.and_eq_true, beq_iff_eq] at htools
  obtain ⟨doc, hdoc, -, -, -, -, -, hdecides⟩ := load_precedence (by decide) (by decide) (eq_ok_of_toOption hs)
  exact ⟨s, doc, eq_ok_of_toOption hs, hdoc, fun name => (hdecides name).1, htools⟩

end Assay.Settings
