import Assay.Proofs.FileResults

/-!
# The results of a run

A run is matched file by file and then put in order. Nothing is lost on the way: the results that speak
of a file are, in some order, what the file gave (`resultsIn_of_matchWith`). What holds of the results of
every file therefore holds of all of them, counted with multiplicity (`subperm_of_filter`,
`perm_of_filter`).
-/

namespace Assay

deriving instance DecidableEq for Classification, Finding, MatchResult, Edge

/-! ## Lists by key -/

section
variable {α : Type} {l l' : List α}

/-- A list is contained in another one if it is so for the items of every key. -/
theorem subperm_of_filter (key : α → String) (h : ∀ k, (l.filter (key · == k)).Subperm (l'.filter (key · == k))) :
    l.Subperm l' := by
  classical
  rw [List.subperm_iff_count]
  intro a
  have := List.subperm_iff_count.1 (h (key a)) a
  rwa [List.count_filter (by simp), List.count_filter (by simp)] at this

theorem perm_of_filter (key : α → String) (h : ∀ k, (l.filter (key · == k)).Perm (l'.filter (key · == k))) :
    l.Perm l' :=
  (subperm_of_filter key fun k => (h k).subperm).antisymm (subperm_of_filter key fun k => (h k).symm.subperm)

/-- The part that one item of a list without repetitions contributes. -/
theorem flatMap_eq_of_forall_ne {β : Type} {l : List α} {f : α → List β} {a : α} (hn : l.Nodup) (ha : a ∈ l)
    (h : ∀ b ∈ l, b ≠ a → f b = []) : l.flatMap f = f a := by
  induction l with
  | nil => cases ha
  | cons b l ih =>
    obtain ⟨hb, hn⟩ := List.nodup_cons.1 hn
    rw [List.flatMap_cons]
    rcases List.mem_cons.1 ha with rfl | ha
    · have : l.flatMap f = [] := List.flatMap_eq_nil_iff.2 fun c hc =>
        h c (List.mem_cons_of_mem _ hc) fun e => hb (e ▸ hc)
      rw [this, List.append_nil]
    · rw [h b (List.mem_cons_self ..) fun e => hb (e ▸ ha), List.nil_append]
      exact ih hn ha fun c hc => h c (List.mem_cons_of_mem _ hc)

end

/-! ## Names, each once -/

namespace Diagnostics

theorem mem_distinct {n : String} {names : List String} : n ∈ distinct names ↔ n ∈ names := by
  induction names with
  | nil => simp [distinct]
  | cons a names ih =>
    rw [distinct, List.mem_cons, List.mem_filter, ih, List.mem_cons]
    by_cases h : n = a <;> simp [h]

theorem nodup_distinct (names : List String) : (distinct names).Nodup := by
  induction names with
  | nil => exact List.nodup_nil
  | cons a names ih =>
    rw [distinct, List.nodup_cons]
    exact ⟨by simp, ih.filter _⟩

theorem mem_canonical {n : String} {names : List String} : n ∈ canonical names ↔ n ∈ names := by
  rw [canonical, ascending, List.mem_mergeSort, mem_distinct]

theorem nodup_canonical (names : List String) : (canonical names).Nodup :=
  (List.mergeSort_perm _ _).nodup_iff.2 (nodup_distinct names)

end Diagnostics

namespace Matching

/-! ## The items of a file -/

section
variable {file : String} {fs : List Finding} {ds : List Defect}

theorem mem_findingsIn {f : Finding} : f ∈ findingsIn file fs ↔ f ∈ fs ∧ f.file = file := by
  simp [findingsIn]

theorem mem_defectsIn {d : Defect} : d ∈ defectsIn file ds ↔ d ∈ ds ∧ d.file = file := by
  simp [defectsIn]

theorem findingsIn_perm (file : String) (fs : List Finding) : (findingsIn file fs).Perm (fs.filter (·.file == file)) :=
  List.mergeSort_perm _ _

theorem defectsIn_perm (file : String) (ds : List Defect) : (defectsIn file ds).Perm (ds.filter (·.file == file)) :=
  List.mergeSort_perm _ _

theorem nodup_files (fs : List Finding) (ds : List Defect) : (files fs ds).Nodup := Diagnostics.nodup_canonical _

theorem findingsIn_eq_nil (h : file ∉ files fs ds) : findingsIn file fs = [] := by
  rw [List.eq_nil_iff_forall_not_mem]
  rintro f hf
  obtain ⟨hm, rfl⟩ := mem_findingsIn.1 hf
  exact h (Diagnostics.mem_canonical.2 (List.mem_append.2 (Or.inr (List.mem_map_of_mem hm))))

theorem defectsIn_eq_nil (h : file ∉ files fs ds) : defectsIn file ds = [] := by
  rw [List.eq_nil_iff_forall_not_mem]
  rintro d hd
  obtain ⟨hm, rfl⟩ := mem_defectsIn.1 hd
  exact h (Diagnostics.mem_canonical.2 (List.mem_append.2 (Or.inl (List.mem_map_of_mem hm))))

end

/-! ## The results that speak of a file -/

/-- The file that a result speaks of. -/
def fileOf (r : MatchResult) : Option String := (r.defect.map Defect.file).or (r.finding.map Finding.file)

/-- The results that speak of a file. -/
def resultsIn (file : String) (rs : List MatchResult) : List MatchResult := rs.filter (fileOf · == some file)

/-- The parts of a result are in one file. -/
structure Lies (file : String) (r : MatchResult) : Prop where
  spoken : fileOf r = some file
  defect : ∀ d, r.defect = some d → d.file = file
  finding : ∀ f, r.finding = some f → f.file = file

section
variable {weight : Weighing} {fs : List Finding} {ds : List Defect} {rs rs' : List MatchResult} {file : String}
  {r : MatchResult}

theorem Lies.matched {f : Finding} {d : Defect} (x : Float) (hf : f.file = file) (hd : d.file = file) :
    Lies file (MatchResult.matched f d x) := by
  constructor <;> simp [fileOf, MatchResult.matched, hf, hd]

theorem Lies.missed {d : Defect} (hd : d.file = file) : Lies file (MatchResult.missed d) := by
  constructor <;> simp [fileOf, MatchResult.missed, hd]

theorem Lies.unmatched {f : Finding} (hf : f.file = file) : Lies file (MatchResult.unmatched f) := by
  constructor <;> simp [fileOf, MatchResult.unmatched, hf]

theorem lies_of_matchFile (hfs : ∀ f ∈ fs, f.file = file) (hds : ∀ d ∈ ds, d.file = file)
    (h : matchFile weight fs ds = .ok rs) (hr : r ∈ rs) : Lies file r := by
  obtain ⟨-, hits, hhits, rfl⟩ := matchFile_eq_ok h
  rw [List.mem_append, List.mem_append, List.mem_map, List.mem_map] at hr
  rcases hr with (hr | ⟨d, hd, rfl⟩) | ⟨f, hf, rfl⟩
  · obtain ⟨p, -, d, f, w, x, hd, hf, -, -, rfl⟩ := hhits.exists_hit hr
    exact .matched x (hfs f (List.mem_of_getElem? hf)) (hds d (List.mem_of_getElem? hd))
  · exact .missed (hds d (mem_of_mem_itemsOff hd))
  · exact .unmatched (hfs f (mem_of_mem_itemsOff hf))

theorem sorted_perm (h : sorted rs = .ok rs') : rs'.Perm rs := by
  obtain ⟨keyed, hk, h⟩ := bind_eq_ok.1 h
  have hs : keyed.map (·.2) = rs := by
    refine map_eq_of_forall₂ (((mapM_eq_ok.1 hk).imp fun r kr hr => ?_).flip)
    obtain ⟨k, -, hr⟩ := bind_eq_ok.1 hr
    exact (congrArg Prod.snd (pure_eq_ok.1 hr)).symm
  rw [← pure_eq_ok.1 h, ← hs]
  exact (List.mergeSort_perm _ _).map _

theorem matchFile_nil (weight : Weighing) : matchFile weight [] [] = .ok [] := by
  simp [matchFile, edges, numbered, chosen, Component.ofEdges_nil]
  rfl

/-- What the files give, in some order. -/
theorem matchWith_eq_ok (h : matchWith weight fs ds = .ok rs) : ∃ parts : String → List MatchResult,
    (∀ file, matchFile weight (findingsIn file fs) (defectsIn file ds) = .ok (parts file)) ∧
      rs.Perm ((files fs ds).flatMap parts) := by
  obtain ⟨listed, hl, h⟩ := bind_eq_ok.1 h
  let parts : String → List MatchResult := fun file =>
    (matchFile weight (findingsIn file fs) (defectsIn file ds)).toOption.getD []
  have hp : ∀ file, matchFile weight (findingsIn file fs) (defectsIn file ds) = .ok (parts file) := by
    intro file
    by_cases hf : file ∈ files fs ds
    · obtain ⟨part, -, hpart⟩ := returns_of_mapM_eq_ok hl file hf
      simp only [parts, hpart, Except.toOption, Option.getD_some]
    · simp only [parts, findingsIn_eq_nil hf, defectsIn_eq_nil hf, matchFile_nil, Except.toOption, Option.getD_some]
  refine ⟨parts, hp, (sorted_perm h).trans (List.Perm.of_eq ?_)⟩
  have hlisted : (files fs ds).map parts = listed := map_eq_of_forall₂ <|
    (mapM_eq_ok.1 hl).imp fun file part hpart => Except.ok.inj ((hp file).symm.trans hpart)
  rw [List.flatMap_def, hlisted]

/-- **Files.** The results that speak of a file are what the file gave, in some order. -/
theorem resultsIn_of_matchWith (h : matchWith weight fs ds = .ok rs) (file : String) :
    ∃ part, matchFile weight (findingsIn file fs) (defectsIn file ds) = .ok part ∧ (resultsIn file rs).Perm part := by
  obtain ⟨parts, hparts, hperm⟩ := matchWith_eq_ok h
  refine ⟨parts file, hparts file, (hperm.filter _).trans (List.Perm.of_eq ?_)⟩
  have lies : ∀ k, ∀ r ∈ parts k, Lies k r := fun k r hr => lies_of_matchFile
    (fun f hf => (mem_findingsIn.1 hf).2) (fun d hd => (mem_defectsIn.1 hd).2) (hparts k) hr
  have own : (parts file).filter (fileOf · == some file) = parts file :=
    List.filter_eq_self.2 fun r hr => by simp [(lies file r hr).spoken]
  have other : ∀ k, k ≠ file → (parts k).filter (fileOf · == some file) = [] := fun k hk =>
    List.filter_eq_nil_iff.2 fun r hr => by simp [(lies k r hr).spoken, hk]
  rw [List.filter_flatMap]
  by_cases hf : file ∈ files fs ds
  · rw [flatMap_eq_of_forall_ne (nodup_files fs ds) hf fun k _ hk => other k hk, own]
  · have hnil : parts file = [] := by
      have := hparts file
      rw [findingsIn_eq_nil hf, defectsIn_eq_nil hf, matchFile_nil] at this
      exact (Except.ok.inj this).symm
    rw [hnil]
    exact List.flatMap_eq_nil_iff.2 fun k hk => other k fun e => hf (e ▸ hk)

/-- Every result is one of a file. -/
theorem exists_file (h : matchWith weight fs ds = .ok rs) (hr : r ∈ rs) : ∃ file part,
    matchFile weight (findingsIn file fs) (defectsIn file ds) = .ok part ∧ r ∈ part := by
  obtain ⟨parts, hparts, hperm⟩ := matchWith_eq_ok h
  obtain ⟨file, -, hr⟩ := List.mem_flatMap.1 (hperm.mem_iff.1 hr)
  exact ⟨file, parts file, hparts file, hr⟩

theorem lies_of_matchWith (h : matchWith weight fs ds = .ok rs) (hr : r ∈ rs) : ∃ file, Lies file r := by
  obtain ⟨file, part, hpart, hr⟩ := exists_file h hr
  exact ⟨file, lies_of_matchFile (fun f hf => (mem_findingsIn.1 hf).2) (fun d hd => (mem_defectsIn.1 hd).2) hpart hr⟩

theorem shaped_of_matchWith (h : matchWith weight fs ds = .ok rs) (hr : r ∈ rs) : Shaped r :=
  have ⟨_, _, hpart, hr⟩ := exists_file h hr
  shaped_of_matchFile hpart hr

/-! ## The pairs of a file in a run -/

/-- The candidates in a file of a run. -/
abbrev candidatesIn (weight : Weighing) (fs : List Finding) (ds : List Defect) (file : String) : Pairs :=
  candidates weight (findingsIn file fs) (defectsIn file ds)

/-- The primary weight of a candidate in a file of a run. -/
abbrev primaryIn (weight : Weighing) (fs : List Finding) (ds : List Defect) (file : String) : ℕ × ℕ → ℕ :=
  primaryOf weight (findingsIn file fs) (defectsIn file ds)

/-- The pairs that are chosen in a file of a run. -/
abbrev pairsIn (weight : Weighing) (fs : List Finding) (ds : List Defect) (file : String) : Pairs :=
  pairsOf weight (findingsIn file fs) (defectsIn file ds)

theorem preferred_of_matchWith (h : matchWith weight fs ds = .ok rs) (file : String) :
    Preferred (candidatesIn weight fs ds file) (primaryIn weight fs ds file)
      (defectBonus (defectsIn file ds).length (findingsIn file fs).length)
      (findingBonus (findingsIn file fs).length) (pairsIn weight fs ds file) :=
  have ⟨_, hpart, _⟩ := resultsIn_of_matchWith h file
  preferred_of_matchFile hpart

/-- The matches in a file are those of a one-to-one set of candidates. -/
structure Matches (weight : Weighing) (fs : List Finding) (ds : List Defect) (rs : List MatchResult) (file : String)
    (M : Pairs) : Prop where
  subset : M ⊆ candidatesIn weight fs ds file
  oneToOne : OneToOne M
  realizes : Realizes weight (findingsIn file fs) (defectsIn file ds) M (ofKind .matched (resultsIn file rs))

theorem matches_pairsIn (h : matchWith weight fs ds = .ok rs) (file : String) :
    Matches weight fs ds rs file (pairsIn weight fs ds file) := by
  obtain ⟨part, hpart, hperm⟩ := resultsIn_of_matchWith h file
  have best := preferred_of_matchFile hpart
  exact ⟨best.subset, best.oneToOne, (matched_of_matchFile hpart).perm (ofKind_perm _ hperm.symm)⟩

theorem missed_of_matchWith (h : matchWith weight fs ds = .ok rs) (file : String) :
    (missedDefects (resultsIn file rs)).Perm
      (itemsOff (defectsIn file ds) (firsts (pairsIn weight fs ds file))) := by
  obtain ⟨part, hpart, hperm⟩ := resultsIn_of_matchWith h file
  rw [← missedDefects_of_matchFile hpart]
  exact (ofKind_perm _ hperm).filterMap _

/-! ## Parts of all results -/

/-- The parts of results that lie in a file are the parts of the results that speak of the file. -/
theorem filter_filterMap_eq {α : Type} {part : MatchResult → Option α} {key : α → String}
    (hpart : ∀ r ∈ rs, ∀ x, part r = some x → fileOf r = some (key x)) (file : String) :
    (rs.filterMap part).filter (key · == file) = (resultsIn file rs).filterMap part := by
  rw [List.filter_filterMap, resultsIn, List.filterMap_filter]
  refine List.filterMap_congr fun r hr => ?_
  cases hx : part r with
  | none => simp
  | some x =>
    simp only [hpart r hr x hx, Option.filter_some]
    by_cases hf : key x == file <;> simp_all

theorem ofKind_resultsIn (k : MatchKind) (file : String) (rs : List MatchResult) :
    ofKind k (resultsIn file rs) = resultsIn file (ofKind k rs) := List.filter_comm ..

theorem fileOf_defect {d : Defect} (hd : r.defect = some d) : fileOf r = some d.file := by simp [fileOf, hd]

theorem fileOf_finding (h : matchWith weight fs ds = .ok rs) (hr : r ∈ rs) {f : Finding}
    (hf : r.finding = some f) : fileOf r = some f.file := by
  obtain ⟨file, lies⟩ := lies_of_matchWith h hr
  rw [lies.spoken, lies.finding f hf]

theorem matchedDefects_filter (h : matchWith weight fs ds = .ok rs) (file : String) :
    ((matchedDefects rs).filter (·.file == file)).Perm
      (itemsAt (defectsIn file ds) (firsts (pairsIn weight fs ds file))) := by
  rw [matchedDefects, filter_filterMap_eq fun r _ d hd => fileOf_defect hd, ← ofKind_resultsIn]
  exact (matches_pairsIn h file).realizes.defects (matches_pairsIn h file).oneToOne

theorem matchedFindings_filter (h : matchWith weight fs ds = .ok rs) (file : String) :
    ((matchedFindings rs).filter (·.file == file)).Perm
      (itemsAt (findingsIn file fs) (seconds (pairsIn weight fs ds file))) := by
  have hfile : ∀ r ∈ ofKind .matched rs, ∀ f, r.finding = some f → fileOf r = some f.file := fun r hr f hf =>
    fileOf_finding h (List.mem_of_mem_filter hr) hf
  rw [matchedFindings, filter_filterMap_eq hfile, ← ofKind_resultsIn]
  exact (matches_pairsIn h file).realizes.findings (matches_pairsIn h file).oneToOne

theorem missedDefects_filter (h : matchWith weight fs ds = .ok rs) (file : String) :
    ((missedDefects rs).filter (·.file == file)).Perm
      (itemsOff (defectsIn file ds) (firsts (pairsIn weight fs ds file))) := by
  rw [missedDefects, filter_filterMap_eq fun r _ d hd => fileOf_defect hd, ← ofKind_resultsIn]
  exact missed_of_matchWith h file

/-- Every finding of a run stands in one result. -/
theorem findings_of_matchWith (h : matchWith weight fs ds = .ok rs) : (rs.filterMap (·.finding)).Perm fs := by
  refine perm_of_filter Finding.file fun file => ?_
  rw [filter_filterMap_eq fun r hr f hf => fileOf_finding h hr hf]
  obtain ⟨part, hpart, hperm⟩ := resultsIn_of_matchWith h file
  exact (hperm.filterMap _).trans ((findings_of_matchFile hpart).trans (findingsIn_perm file fs))

/-- Every defect of a run stands in one result. -/
theorem defects_of_matchWith (h : matchWith weight fs ds = .ok rs) : (rs.filterMap (·.defect)).Perm ds := by
  refine perm_of_filter Defect.file fun file => ?_
  rw [filter_filterMap_eq fun r _ d hd => fileOf_defect hd]
  obtain ⟨part, hpart, hperm⟩ := resultsIn_of_matchWith h file
  exact (hperm.filterMap _).trans ((defects_of_matchFile hpart).trans (defectsIn_perm file ds))

end

/-! ## Runs in one file

A finding and a defect at one place, a second finding at that place, and a defect far away. -/

def loneFinding : Finding where
  raw := ⟨"tool", "1", "rule", "a.c", some 3, none, "", none⟩
  index := 0
  file := "a.c"
  line := some 3
  severity := .medium
  categories := [⟨.doubleFree, 1⟩]
  coarse := false

def twinFinding : Finding := { loneFinding with index := 1 }

def loneDefect : Defect where
  id := "D1"
  sampleId := "S1"
  category := .doubleFree
  location := ⟨"a.c", 3, 3, none⟩
  severity := .medium
  rules := []
  note := ""
  conditional := false
  intentionalDuplicate := false

def farDefect : Defect := { loneDefect with id := "D2", location := ⟨"a.c", 30, 30, none⟩ }

/-- The settings unless others are given. -/
def plainSettings : MatchSettings := ⟨MatchSettings.defaultTolerance, MatchSettings.defaultDiscount⟩

/-- A run in one file whose items and results are in order. -/
theorem run_eq_ok {s : MatchSettings} {fs : List Finding} {ds : List Defect} (file : String) {r r' : MatchResult}
    {k k' : MatchResult.Key} (hfile : files fs ds = [file]) (hfs : findingsIn file fs = fs)
    (hds : defectsIn file ds = ds) (h : matchFile (pairWeight s) fs ds = .ok [r, r']) (hk : r.key = .ok k)
    (hk' : r'.key = .ok k') (hle : k'.before k = false) : run s fs ds = .ok [r, r'] := by
  simp only [run, matchWith, sorted, hfile, hfs, hds, h, hk, hk', List.mapM_cons, List.mapM_nil, List.flatten_cons,
    List.flatten_nil, List.append_nil, bind, Except.bind, pure, Except.pure]
  rw [List.mergeSort_of_pairwise (by simp [hle])]
  rfl

/-- The chosen pairs where one defect has all candidates. -/
theorem chosen_star (d : ℕ) (ns : List ℕ) {g c : ℕ} {es : List Edge} (hne : ns ≠ []) (hlt : ns.Pairwise (· < ·))
    (hes : es.map (fun e => (e.defect, e.finding)) = ns.map fun n => (d, n)) :
    chosen g c es = solveComponent g c es ⟨[d], ns⟩ := by
  rw [chosen, hes, Component.ofEdges_star d hne hlt, List.flatMap_singleton]

theorem numbered_one {α : Type} (a : α) : numbered [a] = [(0, a)] := rfl

theorem numbered_two {α : Type} (a b : α) : numbered [a, b] = [(0, a), (1, b)] := rfl

/-- The weights of the pairs at and away from the place of the finding. -/
theorem weights_lone :
    pairWeight plainSettings loneFinding loneDefect = .ok (some 1) ∧
      pairWeight plainSettings twinFinding loneDefect = .ok (some 1) ∧
      pairWeight plainSettings loneFinding farDefect = .ok none ∧
      primaryWeight 1 = .ok 1000000000 ∧ roundedScore 1 = .ok 1 := by
  refine ⟨?_, ?_, ?_, ?_, ?_⟩ <;> exact eq_ok_of_toOption (by decide +kernel)

/-- One pair, two pairs of one defect, and one pair beside a defect without any. -/
theorem solve_lone :
    solveComponent 1 1 [⟨0, 0, 1, 1000000000⟩] ⟨[0], [0]⟩ = [(0, 0)] ∧
      solveComponent 1 2 [⟨0, 0, 1, 1000000000⟩, ⟨0, 1, 1, 1000000000⟩] ⟨[0], [0, 1]⟩ = [(0, 0)] ∧
      solveComponent 2 1 [⟨0, 0, 1, 1000000000⟩] ⟨[0], [0]⟩ = [(0, 0)] := by
  refine ⟨?_, ?_, ?_⟩ <;> decide +kernel

theorem chosen_lone : chosen 1 1 [⟨0, 0, 1, 1000000000⟩] = [(0, 0)] := by
  rw [chosen_star 0 [0] (by decide) (by decide) rfl, solve_lone.1]

theorem matchFile_lone {f : Finding} {d : Defect} (hw : pairWeight plainSettings f d = .ok (some 1)) :
    matchFile (pairWeight plainSettings) [f] [d] = .ok [MatchResult.matched f d 1] := by
  obtain ⟨-, -, -, hprimary, hrounded⟩ := weights_lone
  simp [matchFile, edges, edge?, numbered_one, hw, hprimary, hrounded, chosen_lone, bind, Except.bind, pure, Except.pure]

theorem defectsIn_lone : defectsIn "a.c" [loneDefect] = [loneDefect] := List.mergeSort_singleton _

theorem findingsIn_lone : findingsIn "a.c" [loneFinding] = [loneFinding] := List.mergeSort_singleton _

theorem run_lone :
    run plainSettings [loneFinding] [loneDefect] = .ok [MatchResult.matched loneFinding loneDefect 1] := by
  have hfile : files [loneFinding] [loneDefect] = ["a.c"] := List.mergeSort_singleton _
  have hkey : (MatchResult.matched loneFinding loneDefect 1).key = .ok ⟨"a.c", 3, 0, "D1", 0⟩ := rfl
  simp [run, matchWith, hfile, findingsIn_lone, defectsIn_lone, matchFile_lone weights_lone.1, sorted, hkey, bind,
    Except.bind, pure, Except.pure]

theorem edges_twins : edges (pairWeight plainSettings) [loneFinding, twinFinding] [loneDefect] =
    .ok [⟨0, 0, 1, 1000000000⟩, ⟨0, 1, 1, 1000000000⟩] := by
  obtain ⟨hlone, htwin, -, hprimary, -⟩ := weights_lone
  simp [edges, edge?, numbered_one, numbered_two, hlone, htwin, hprimary, bind, Except.bind, pure, Except.pure]

theorem chosen_twins : chosen 1 2 [⟨0, 0, 1, 1000000000⟩, ⟨0, 1, 1, 1000000000⟩] = [(0, 0)] := by
  rw [chosen_star 0 [0, 1] (by decide) (by decide) rfl, solve_lone.2.1]

theorem findingsIn_twins : findingsIn "a.c" [loneFinding, twinFinding] = [loneFinding, twinFinding] :=
  List.mergeSort_of_pairwise (by decide)

theorem pairsIn_twins :
    pairsIn (pairWeight plainSettings) [loneFinding, twinFinding] [loneDefect] "a.c" = {(0, 0)} := by
  rw [pairsIn, findingsIn_twins, defectsIn_lone, pairsOf_eq edges_twins]
  exact congrArg List.toFinset chosen_twins

theorem run_twins : run plainSettings [loneFinding, twinFinding] [loneDefect] =
    .ok [MatchResult.matched loneFinding loneDefect 1, MatchResult.unmatched twinFinding] := by
  refine run_eq_ok "a.c" (List.mergeSort_singleton _) findingsIn_twins defectsIn_lone ?_ rfl rfl (by decide)
  simp [matchFile, edges_twins, chosen_twins, numbered_one, numbered_two, weights_lone, bind, Except.bind, pure, Except.pure]

theorem run_far : run plainSettings [loneFinding] [loneDefect, farDefect] =
    .ok [MatchResult.matched loneFinding loneDefect 1, MatchResult.missed farDefect] := by
  obtain ⟨hlone, -, hfar, hprimary, hrounded⟩ := weights_lone
  have hes : edges (pairWeight plainSettings) [loneFinding] [loneDefect, farDefect] = .ok [⟨0, 0, 1, 1000000000⟩] := by
    simp [edges, edge?, numbered_one, numbered_two, hlone, hfar, hprimary, bind, Except.bind, pure, Except.pure]
  have hc : chosen 2 1 [⟨0, 0, 1, 1000000000⟩] = [(0, 0)] := by
    rw [chosen_star 0 [0] (by decide) (by decide) rfl, solve_lone.2.2]
  refine run_eq_ok "a.c" (List.mergeSort_singleton _) findingsIn_lone (List.mergeSort_of_pairwise (by decide)) ?_ rfl
    rfl (by decide)
  simp [matchFile, hes, hc, numbered_one, numbered_two, hrounded, bind, Except.bind, pure, Except.pure]

end Matching

end Assay
