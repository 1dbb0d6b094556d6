import Assay.Proofs.ReportStorage
import Assay.Proofs.RunOrder
import Assay.Proofs.StoreHistory

/-!
# Runs stored one after the other

A call of `store` stores the report under the number that it gets, leaves a directory without a key, or changes
nothing (`RunStore.Turn`). So what is in the directory of all runs stays there, and a call gets a higher number
than every run of its day. Calls on days that do not go back therefore give ids in ascending order, whatever the
time of day and whatever else is in the directory (`RunStore.stored_in_order`).
-/

namespace Assay

namespace RunStore

/-- Whether a fault says that no number of the day is left. -/
def isFull : Fault → Bool
  | .storeFull .. => true
  | _ => false

/-- What a call of `store` comes to, and the runs after it. -/
inductive Turn (place : Path) (now : Moment) (r : Report) (runs : Directory) :
    Except Fault String → Directory → Prop
  | stored {k : ℕ} {a b : List UInt8} : Allots now runs k →
      Turn place now r runs (.ok (idOf now k)) (runs.put (idOf now k) (.dir (filesOf a b)))
  /-- A document of the report was not written. -/
  | torn {k : ℕ} {e : Fault} {files : Directory} : Allots now runs k →
      (planUnder place (idOf now k) r).outcome = .error e → Directory.get? files keyName = none →
        Turn place now r runs (.error e) (runs.put (idOf now k) (.dir files))
  /-- The directory of the run was not made. -/
  | refused {k : ℕ} {e : Fault} : Allots now runs k → (planUnder place (idOf now k) r).outcome = .error e →
      Turn place now r runs (.error e) runs
  | full : freeId now runs = none → Turn place now r runs (.error (.storeFull now.date.stamp place.toText)) runs

/-- What calls that are made one after the other come to. -/
inductive Turns (place : Path) : Directory → List (Moment × Report) → List (Except Fault String) → Directory → Prop
  | nil {runs : Directory} : Turns place runs [] [] runs
  | cons {runs runs' runs'' : Directory} {now : Moment} {r : Report} {o : Except Fault String}
      {calls : List (Moment × Report)} {os : List (Except Fault String)} : Turn place now r runs o runs' →
      Turns place runs' calls os runs'' → Turns place runs ((now, r) :: calls) (o :: os) runs''

/-- What calls of `store` come to that are made one after the other. -/
def outcomes (s : RunStore) : Disk → List (Moment × Report) → List (Except Fault String)
  | _, [] => []
  | d, (now, r) :: calls => ((s.store now r).run d).1 :: outcomes s ((s.store now r).run d).2 calls

/-- The disk after calls of `store` that are made one after the other. -/
def after (s : RunStore) : Disk → List (Moment × Report) → Disk
  | d, [] => d
  | d, (now, r) :: calls => after s ((s.store now r).run d).2 calls

/-- The ids among what calls come to, in the order of the calls. -/
def idsOf (os : List (Except Fault String)) : List String := os.filterMap Except.toOption

/-- A disk that gained names: no file changed, and the working directory is the same. -/
structure Grown (d d' : Disk) : Prop where
  within : d.top.Within d'.top
  cwd : d'.cwd = d.cwd

/-- What is in the directory of all runs, which is made if it is missing. -/
def Holds (s : RunStore) (d : Disk) (runs : Directory) : Prop :=
  ∃ made, d.mkdirs s.runs = (.ok (), made) ∧ made.find s.runs = .ok (.dir runs)

/-- A report can be written whatever its id. -/
def Storable (s : RunStore) (r : Report) : Prop := ∀ id, Digits idLength id → (planUnder s.runs id r).outcome = .ok id

/-- A run that was just stored: its id was no name, and has sixteen digits, a higher number than every run of the
day, and both files. So it is found by its id, and is among the runs that are listed. -/
structure IsNew (s : RunStore) (now : Moment) (runs : Directory) (id : String) (d : Disk) : Prop where
  new : runs.get? id = none
  digits : Digits idLength id
  day : isRunOf now.date.stamp (id, .dir []) = true
  numbers : ∀ e ∈ runs, isRunOf now.date.stamp e = true → numberOf e.1 < numberOf id
  loaded : isDigits (Text.strip id).toList = true ∧ d.isFile (s.file (Text.strip id) reportName) = .ok true
  listed : isRunName id = true ∧ s.isComplete d id = .ok true

section
variable {s : RunStore} {d d' start : Disk} {place : Path} {now : Moment} {r : Report} {id name : String} {k : ℕ}
  {o : Except Fault String} {os : List (Except Fault String)} {runs runs' files : Directory} {ids l : List String}
  {calls : List (Moment × Report)} {n : Node} {filters : Filters}

/-! ## One call -/

theorem not_isFull_of_planUnder {e : Fault} (h : (planUnder place id r).outcome = .error e) : isFull e = false := by
  have hbytes : ∀ {p : Path} {v : Value}, bytesFor p v = .error e → isFull e = false := by
    intro p v h
    rcases bind_eq_error.1 h with h | ⟨text, -, h⟩
    · cases Json.isUnwritten_of_document h <;> rfl
    split at h
    · cases h
      rfl
    · obtain ⟨f, -, rfl⟩ := mapError_eq_error.1 h
      rfl
  unfold planUnder at h
  simp only at h
  split at h
  · cases h
    rfl
  split at h
  · cases h
  next hkey =>
    cases h
    exact hbytes hkey
  next hreport =>
    cases h
    exact hbytes hreport

theorem turn_of_plan : Turn place now r runs (plan now place r runs).outcome ((plan now place r runs).apply runs) := by
  cases hout : (plan now place r runs).outcome with
  | ok id =>
    obtain ⟨a, b, hfree, -, -, happly⟩ := plan_eq_ok hout
    obtain ⟨k, hk, rfl⟩ := exists_allots hfree
    rw [happly]
    exact .stored hk
  | error e =>
    have hbegun := begun_of_error hout
    cases hfree : freeId now runs with
    | none =>
      simp only [plan, hfree] at hout ⊢
      cases hout
      exact .full hfree
    | some id =>
      obtain ⟨k, hk, rfl⟩ := exists_allots hfree
      have hplan : plan now place r runs = planUnder place (idOf now k) r := by rw [plan, hfree]
      rw [hplan] at hout
      rcases hbegun with hsame | ⟨id, hid, hbegun⟩
      · rw [hsame]
        exact .refused hk hout
      · cases hfree.symm.trans hid
        generalize (plan now place r runs).apply runs = runs' at hbegun
        cases hbegun with
        | untouched => exact .refused hk hout
        | torn htorn => exact .torn hk hout htorn

theorem Turn.within (h : Turn place now r runs o runs') : (Node.dir runs).Within (.dir runs') := by
  cases h with
  | stored hk | torn hk _ _ => exact Node.within_put hk.new
  | refused _ _ | full _ => exact .refl _

/-- The runs of the day have lower numbers than the one that a call gets. -/
theorem Allots.numberOf_lt (h : Allots now runs k) (hnow : now.IsShown) {e : String × Node} (he : e ∈ runs)
    (hrun : isRunOf now.date.stamp e = true) : numberOf e.1 < numberOf (idOf now k) := by
  rw [numberOf_idOf hnow h.le_max]
  exact (numberOf_lt_next he hrun).trans_le h.next_le

theorem Turn.kept (h : Turn place now r runs o runs') (hname : runs.get? name = some n) : runs'.get? name = some n := by
  have other : ∀ {k : ℕ} {files : Directory}, Allots now runs k →
      Directory.get? (runs.put (idOf now k) (.dir files)) name = some n := by
    intro k files hk
    have hne : name ≠ idOf now k := by
      rintro rfl
      rw [hk.new] at hname
      cases hname
    rw [Directory.get?_put_of_ne hne, hname]
  cases h with
  | stored hk | torn hk _ _ => exact other hk
  | refused _ _ | full _ => exact hname

/-! ## Reports that can be stored -/

theorem Digits.keeps {width : ℕ} (h : Digits width id) : Json.keeps true id = true := by
  have hheld : Text.isHeld id = true := by
    rw [Text.isHeld, beq_iff_eq, h.units, Text.ofUnits_of_ascii h.ascii]
  have hwhole : ((Text.units id.toList).all fun u => !Text.isSurrogate u) = true := by
    rw [h.units, List.all_map, List.all_eq_true]
    intro c hc
    have hc := h.ascii c hc
    simp only [Function.comp, Text.isSurrogate]
    simp
    omega
  rw [Json.keeps, hheld, hwhole]
  rfl

theorem isStorable_withRunId {whole : Bool} (hid : Json.keeps whole id = true)
    (h : Json.isStorable whole (r.withRunId "").toValue = true) :
    Json.isStorable whole (r.withRunId id).toValue = true := by
  simp only [Report.toValue, Report.withRunId, Value.record, List.map_cons, List.map_nil, Json.isStorable,
    Json.hasStorable, Json.textKeys, Value.ofOption, Bool.and_eq_true] at h ⊢
  simp_all

/-- A report can be stored if its documents are kept in files and there is room behind the path of all runs. -/
theorem storable_of_isStorable (hroom : Disk.width s.runs.toText + 100 ≤ Disk.maxPath)
    (hr : Json.isStorable true (r.withRunId "").toValue = true) (hk : Json.isStorable true r.keyValue = true) :
    s.Storable r := by
  intro id hid
  have hname := Disk.width_ofList_le id.toList
  rw [String.ofList_toList, hid.length, idLength] at hname
  have hrun := width_child_le s.runs id
  have hreport := width_child_le (s.runs.child id) reportName
  have hkey := width_child_le (s.runs.child id) keyName
  have hnames : Disk.width reportName = 11 ∧ Disk.width keyName = 8 ∧ Disk.stagingWidth = 13 := ⟨rfl, rfl, rfl⟩
  exact outcome_planUnder (by omega) (by omega) (by omega) (isStorable_withRunId hid.keeps hr) hk

theorem Storable.outcome (h : s.Storable r) (hnow : now.IsShown) (hfree : freeId now runs = some id) :
    (plan now s.runs r runs).outcome = .ok id := by
  rw [plan_of_freeId hfree]
  exact h id (digits_of_freeId hnow hfree).1

/-! ## The disk -/

theorem Grown.refl (d : Disk) : Grown d d := ⟨.refl _, rfl⟩

theorem Grown.trans {d'' : Disk} (h : Grown d d') (h' : Grown d' d'') : Grown d d'' :=
  ⟨h.within.trans h'.within, h'.cwd.trans h.cwd⟩

theorem holds_of_find (h : d.find s.runs = .ok (.dir runs)) : s.Holds d runs := by
  obtain ⟨place, hat⟩ := Disk.isAt_of_find h
  exact ⟨d, hat.mkdirs, h⟩

/-- What a call does to the disk is what it does to the directory of all runs. -/
theorem turn_of_store (hholds : s.Holds d runs) (h : (s.store now r).run d = (o, d')) :
    ∃ made place runs', d.mkdirs s.runs = (.ok (), made) ∧ made.IsAt s.runs place runs ∧
      Turn s.runs now r runs o runs' ∧ d' = { made with top := made.top.put place (.dir runs') } := by
  obtain ⟨made, hmade, hfound⟩ := hholds
  obtain ⟨place, hat⟩ := Disk.isAt_of_find hfound
  rw [store, run_onRuns hmade hat] at h
  obtain ⟨rfl, rfl⟩ := Prod.mk.inj h
  exact ⟨made, place, _, hmade, hat, turn_of_plan, rfl⟩

theorem grown_of_store (hholds : s.Holds d runs) (now : Moment) (r : Report) : ∃ runs',
    Turn s.runs now r runs ((s.store now r).run d).1 runs' ∧ ((s.store now r).run d).2.find s.runs = .ok (.dir runs') ∧
      Grown d ((s.store now r).run d).2 := by
  obtain ⟨made, place, runs', hmade, hat, hturn, hd⟩ :=
    turn_of_store hholds (Prod.mk.eta (p := (s.store now r).run d)).symm
  obtain ⟨hwithin, hcwd⟩ := Disk.mkdirs_within d s.runs
  rw [hmade] at hwithin hcwd
  rw [hd]
  exact ⟨runs', hturn, (hat.put hturn.within).find, hwithin.trans (.put hat.found hturn.within), hcwd⟩

/-- A call on a full day does no more than make the directory of all runs. -/
theorem mkdirs_of_full {day root : String} (hholds : s.Holds d runs)
    (h : (s.store now r).run d = (.error (.storeFull day root), d')) :
    d.mkdirs s.runs = (.ok (), d') ∧ d'.find s.runs = .ok (.dir runs) := by
  obtain ⟨made, place, runs', hmade, hat, hturn, rfl⟩ := turn_of_store hholds h
  have hsame : runs' = runs := by
    cases hturn with
    | torn _ hplan _ => cases not_isFull_of_planUnder hplan
    | refused _ _ | full _ => rfl
  rw [hsame, Node.put_self hat.found]
  exact ⟨hmade, hat.find⟩

theorem isNew_of_store (hnow : now.IsShown) (hholds : s.Holds d runs) (h : (s.store now r).run d = (.ok id, d')) :
    s.IsNew now runs id d' := by
  obtain ⟨made, place, runs', -, -, hturn, -⟩ := turn_of_store hholds h
  have hcomplete := isComplete_of_store hnow h
  obtain ⟨a, -, -, -, hreport, -, -⟩ := file_of_store hnow h
  cases hturn with
  | stored hk =>
    have hdigits := digits_idOf hnow hk.le_max
    exact {
      new := hk.new
      digits := hdigits
      day := isRunOf_idOf hnow hk.le_max
      numbers := fun e => hk.numberOf_lt hnow
      loaded := by
        rw [hdigits.strip]
        exact ⟨hdigits.isDigits, Disk.isFile_eq_true.2 ⟨a, hreport⟩⟩
      listed := ⟨hdigits.isRunName, hcomplete⟩ }

/-! ## Calls one after the other -/

theorem turns_of_find (hfind : d.find s.runs = .ok (.dir runs)) (calls : List (Moment × Report)) : ∃ runs',
    Turns s.runs runs calls (s.outcomes d calls) runs' ∧ (s.after d calls).find s.runs = .ok (.dir runs') ∧
      Grown d (s.after d calls) := by
  induction calls generalizing d runs with
  | nil => exact ⟨runs, .nil, hfind, .refl d⟩
  | cons c calls ih =>
    obtain ⟨now, r⟩ := c
    obtain ⟨runs', hturn, hfind', hgrown⟩ := grown_of_store (holds_of_find hfind) now r
    obtain ⟨runs'', hturns, hfind'', hgrown'⟩ := ih hfind'
    exact ⟨runs'', .cons hturn hturns, hfind'', hgrown.trans hgrown'⟩

/-- The first call makes the directory of all runs if it is missing. -/
theorem turns_of_holds (hholds : s.Holds d runs) (calls : List (Moment × Report)) : ∃ runs',
    Turns s.runs runs calls (s.outcomes d calls) runs' ∧ s.Holds (s.after d calls) runs' := by
  cases calls with
  | nil => exact ⟨runs, .nil, hholds⟩
  | cons c calls =>
    obtain ⟨now, r⟩ := c
    obtain ⟨runs', hturn, hfind, -⟩ := grown_of_store hholds now r
    obtain ⟨runs'', hturns, hfind', -⟩ := turns_of_find hfind calls
    exact ⟨runs'', .cons hturn hturns, holds_of_find hfind'⟩

theorem Turns.kept (h : Turns place runs calls os runs') (hname : runs.get? name = some n) :
    runs'.get? name = some n := by
  induction h with
  | nil => exact hname
  | cons hturn _ ih => exact ih (hturn.kept hname)

theorem mem_idsOf_cons : id ∈ idsOf (o :: os) ↔ o = .ok id ∨ id ∈ idsOf os := by
  cases o <;> simp [idsOf, Except.toOption, eq_comm]

/-- A call gives a later id than that of a run of the same day or an earlier one. -/
theorem Turn.before {first : Moment} (hfirst : first.IsShown) (hk : k ≤ maxNumber)
    (hrun : runs.get? (idOf first k) = some (.dir files)) (hnow : now.IsShown) (hday : first.date.rank ≤ now.date.rank)
    (h : Turn place now r runs (.ok id) runs') : Text.before (idOf first k) id = true := by
  cases h with
  | @stored n a b hn =>
    rcases hday.lt_or_eq with hlt | heq
    · exact idOf_before_of_day hfirst hnow hk hn.le_max hlt
    · have hsame := Date.rank_inj.1 heq
      have hnumber := hn.numberOf_lt hnow (Directory.mem_of_get? hrun) (hsame ▸ isRunOf_idOf hfirst hk)
      rw [numberOf_idOf hfirst hk, numberOf_idOf hnow hn.le_max] at hnumber
      exact idOf_before_of_number hfirst hnow hn.le_max hsame hnumber

theorem Turns.before {first : Moment} (hfirst : first.IsShown) (hk : k ≤ maxNumber)
    (hrun : runs.get? (idOf first k) = some (.dir files)) (hshown : ∀ c ∈ calls, c.1.IsShown)
    (hdays : ∀ c ∈ calls, first.date.rank ≤ c.1.date.rank) (h : Turns place runs calls os runs') :
    ∀ id ∈ idsOf os, Text.before (idOf first k) id = true := by
  induction h with
  | nil => nofun
  | cons hturn _ ih =>
    intro id hid
    rcases mem_idsOf_cons.1 hid with rfl | hid
    · exact hturn.before hfirst hk hrun (hshown _ List.mem_cons_self) (hdays _ List.mem_cons_self)
    · exact ih (hturn.kept hrun) (fun c hc => hshown c (List.mem_cons_of_mem _ hc))
        (fun c hc => hdays c (List.mem_cons_of_mem _ hc)) id hid

/-- Calls on days that do not go back give ids in ascending order. -/
theorem Turns.pairwise_before (hshown : ∀ c ∈ calls, c.1.IsShown)
    (hdays : calls.Pairwise fun b c => b.1.date.rank ≤ c.1.date.rank) (h : Turns place runs calls os runs') :
    (idsOf os).Pairwise fun a b => Text.before a b = true := by
  induction h with
  | nil => exact .nil
  | @cons runs runs' runs'' now r o calls os hturn hturns ih =>
    obtain ⟨hfirst, hrest⟩ := List.pairwise_cons.1 hdays
    have hlater : ∀ c ∈ calls, c.1.IsShown := fun c hc => hshown c (List.mem_cons_of_mem _ hc)
    have hpairs := ih hlater hrest
    cases hturn with
    | @stored k a b hk =>
      have hnow : now.IsShown := hshown _ List.mem_cons_self
      exact List.pairwise_cons.2
        ⟨hturns.before hnow hk.le_max Directory.get?_put_self hlater hfirst, hpairs⟩
    | torn _ _ _ | refused _ _ | full _ => exact hpairs

/-! ## The list of all runs -/

theorem isFile_of_grown {p : Path} (h : Grown d d') (hfile : d.isFile p = .ok true) : d'.isFile p = .ok true := by
  obtain ⟨bytes, hfind⟩ := Disk.isFile_eq_true.1 hfile
  exact Disk.isFile_eq_true.2 ⟨bytes, Disk.find_of_within h.within h.cwd hfind⟩

theorem isComplete_iff : s.isComplete d id = .ok true ↔
    d.isFile (s.file id keyName) = .ok true ∧ d.isFile (s.file id reportName) = .ok true := by
  rw [isComplete]
  rcases d.isFile (s.file id keyName) with e | key
  · simp [bind, Except.bind]
  · cases key <;> simp [bind, Except.bind, pure, Except.pure]

/-- A run that is stored stays complete whatever calls follow. -/
theorem exists_complete (hholds : s.Holds d runs) (hshown : ∀ c ∈ calls, c.1.IsShown)
    (hid : id ∈ idsOf (s.outcomes d calls)) :
    ∃ (runs' : Directory) (files : Directory), (s.after d calls).find s.runs = .ok (.dir runs') ∧
      runs'.get? id = some (.dir files) ∧ isRunName id = true ∧ s.isComplete (s.after d calls) id = .ok true := by
  induction calls generalizing d runs with
  | nil => cases hid
  | cons c calls ih =>
    obtain ⟨now, r⟩ := c
    obtain ⟨runs', hturn, hfind, -⟩ := grown_of_store hholds now r
    rcases mem_idsOf_cons.1 hid with hid | hid
    · have hnow : now.IsShown := hshown _ List.mem_cons_self
      have hnew := isNew_of_store hnow hholds (Prod.ext hid rfl : (s.store now r).run d = (.ok id, _))
      obtain ⟨hkey, hreport⟩ := isComplete_iff.1 hnew.listed.2
      obtain ⟨runs'', hturns, hfind', hgrown⟩ := turns_of_find hfind calls
      rw [hid] at hturn
      cases hturn with
      | @stored k a b hk =>
        exact ⟨runs'', _, hfind', hturns.kept Directory.get?_put_self, hnew.listed.1,
          isComplete_iff.2 ⟨isFile_of_grown hgrown hkey, isFile_of_grown hgrown hreport⟩⟩
    · exact ih (holds_of_find hfind) (fun c hc => hshown c (List.mem_cons_of_mem _ hc)) hid

theorem exists_lists (h : s.listFrom d filters l = .ok ids) (hid : id ∈ l) :
    ∃ own, s.lists d filters id = .ok own ∧ (own = true → id ∈ ids) := by
  induction l generalizing ids with
  | nil => cases hid
  | cons other l ih =>
    rw [listFrom_cons] at h
    obtain ⟨own, hown, h⟩ := bind_eq_ok.1 h
    obtain ⟨others, hothers, h⟩ := bind_eq_ok.1 h
    cases h
    rcases List.mem_cons.1 hid with rfl | hid
    · refine ⟨own, hown, fun htrue => ?_⟩
      rw [htrue]
      exact List.mem_cons_self
    · obtain ⟨own', hown', hmem⟩ := ih hothers hid
      refine ⟨own', hown', fun htrue => ?_⟩
      cases own with
      | true => exact List.mem_cons_of_mem _ (hmem htrue)
      | false => exact hmem htrue

theorem mem_names_of_get? (hrun : runs.get? id = some (.dir files)) (hname : isRunName id = true) : id ∈ names runs := by
  rw [names, Diagnostics.ascending, List.mem_mergeSort, List.mem_map]
  refine ⟨(id, .dir files), List.mem_filter.2 ⟨Directory.mem_of_get? hrun, ?_⟩, rfl⟩
  simp [Node.isDir, hname]

/-- A complete run is listed by whoever asks for all runs. -/
theorem mem_of_list (hfind : d.find s.runs = .ok (.dir runs)) (hrun : runs.get? id = some (.dir files))
    (hname : isRunName id = true) (hcomplete : s.isComplete d id = .ok true) (h : s.list d [] = .ok ids) : id ∈ ids := by
  obtain ⟨place, hat⟩ := Disk.isAt_of_find hfind
  rw [list_of_known hat (by simp)] at h
  obtain ⟨own, hown, hmem⟩ := exists_lists h (mem_names_of_get? hrun hname)
  refine hmem ?_
  rw [lists, hcomplete] at hown
  simp only [bind, Except.bind, Bool.not_true, Bool.false_eq_true, if_false] at hown
  split at hown <;> cases hown
  rfl

/-- Ids in ascending order stand in this order among those that are listed. -/
theorem sublist_of_list (hpairs : l.Pairwise fun a b => Text.before a b = true) (hsub : ∀ id ∈ l, id ∈ ids)
    (h : s.list d [] = .ok ids) : l.Sublist ids := by
  have : Std.Antisymm fun a b : String => Text.rankKey a ≤ Text.rankKey b :=
    ⟨fun a b hab hba => Text.rankKey_inj.1 (le_antisymm hab hba)⟩
  have hsorted := Diagnostics.ascending_pairwise ids
  rw [ascending_of_list h] at hsorted
  have hlt : l.Pairwise fun a b => Text.rankKey a < Text.rankKey b := hpairs.imp fun hab => Text.before_iff.1 hab
  have hnodup : l.Nodup := hlt.imp fun hab heq => absurd (congrArg Text.rankKey heq) hab.ne
  exact List.sublist_of_subperm_of_pairwise (List.subperm_of_subset hnodup hsub) (hlt.imp le_of_lt) hsorted

/-! ## Calls in a history -/

/-- A call that fails leaves what a call leaves that is cut off before its last step. -/
theorem cutOff_of_error {e : Fault} (hholds : s.Holds d runs) (h : (s.store now r).run d = (.error e, d')) :
    (s.cutOff now r 2).run d = (.ok (), d') := by
  obtain ⟨made, hmade, hfound⟩ := hholds
  obtain ⟨place, hat⟩ := Disk.isAt_of_find hfound
  rw [store, run_onRuns hmade hat] at h
  obtain ⟨hout, rfl⟩ := Prod.mk.inj h
  have htake : (plan now s.runs r runs).steps.take 2 = (plan now s.runs r runs).steps := by
    revert hout
    unfold plan
    split
    · exact take_of_error
    · exact fun _ => rfl
  rw [cutOff, run_onRuns hmade hat, htake]
  rfl

/-- Calls that are made one after the other make a history. -/
theorem reached_of_calls {done : List (String × Report)} (hholds : s.Holds d runs) (hshown : ∀ c ∈ calls, c.1.IsShown)
    (hkeys : ∀ c ∈ calls, c.2.HoldsKey) (h : s.Reached start done d) :
    ∃ done', s.Reached start done' (s.after d calls) := by
  induction calls generalizing d runs done with
  | nil => exact ⟨done, h⟩
  | cons c calls ih =>
    obtain ⟨now, r⟩ := c
    obtain ⟨runs', -, hfind, -⟩ := grown_of_store hholds now r
    have hnow : now.IsShown := hshown _ List.mem_cons_self
    have hkey : r.HoldsKey := hkeys _ List.mem_cons_self
    obtain ⟨new, hcall⟩ : ∃ new, s.Call d new ((s.store now r).run d).2 := by
      cases hout : ((s.store now r).run d).1 with
      | ok id => exact ⟨some (id, r), .completed hnow hkey (Prod.ext hout rfl)⟩
      | error e => exact ⟨none, .cut hnow (by decide) (cutOff_of_error hholds (Prod.ext hout rfl))⟩
    exact ih (holds_of_find hfind) (fun c hc => hshown c (List.mem_cons_of_mem _ hc))
      (fun c hc => hkeys c (List.mem_cons_of_mem _ hc)) (h.call hcall)

/-- **Order.** Calls of `store` are made one after the other, on days that do not go back, whatever is in the
directory of all runs. Each call that stores its report gives a new id with a higher number than those of the runs
of its day; each call that finds the day full leaves all runs as they are. The ids come in ascending order, so the
runs are listed in the order in which they were stored. -/
theorem stored_in_order (hholds : s.Holds start runs) (hshown : ∀ c ∈ calls, c.1.IsShown)
    (hdays : calls.Pairwise fun b c => b.1.date.rank ≤ c.1.date.rank) :
    (∀ earlier now r later, calls = earlier ++ (now, r) :: later → ∃ present, s.Holds (s.after start earlier) present ∧
      (∀ id d, (s.store now r).run (s.after start earlier) = (.ok id, d) → s.IsNew now present id d) ∧
      ∀ day root d, (s.store now r).run (s.after start earlier) = (.error (.storeFull day root), d) →
        (s.after start earlier).mkdirs s.runs = (.ok (), d) ∧ d.find s.runs = .ok (.dir present)) ∧
    (idsOf (s.outcomes start calls)).Pairwise (fun a b => Text.before a b = true) ∧
    (∀ ids, s.list (s.after start calls) [] = .ok ids → (idsOf (s.outcomes start calls)).Sublist ids) ∧
    (s.Fits → s.Ready start → (∀ c ∈ calls, c.2.HoldsKey) → ∀ ids, s.list start [] = .ok ids →
      ∃ ids', s.list (s.after start calls) [] = .ok ids') := by
  obtain ⟨runs', hturns, -⟩ := turns_of_holds hholds calls
  have hpairs := hturns.pairwise_before hshown hdays
  refine ⟨?_, hpairs, fun ids hids => ?_, fun hfits hready hkeys ids hids => ?_⟩
  · rintro earlier now r later rfl
    obtain ⟨present, -, hpresent⟩ := turns_of_holds hholds earlier
    have hnow : now.IsShown := hshown (now, r) (List.mem_append_right _ List.mem_cons_self)
    exact ⟨present, hpresent, fun id d => isNew_of_store hnow hpresent, fun day root d => mkdirs_of_full hpresent⟩
  · refine sublist_of_list hpairs (fun id hid => ?_) hids
    obtain ⟨present, files, hfind, hrun, hname, hcomplete⟩ := exists_complete hholds hshown hid
    exact mem_of_list hfind hrun hname hcomplete hids
  · obtain ⟨done, hreached⟩ := reached_of_calls hholds hshown hkeys .start
    obtain ⟨hlist, -, -⟩ := hreached.invariant hfits hready
    rw [hlist, hids]
    exact ⟨_, rfl⟩

end

end RunStore

namespace Corpus.Nested

open RunStore

/-- A disk with some entries where the runs are. -/
def diskWith (runs : Directory) : Disk := ⟨.dir [("store", .dir [("runs", .dir runs)])], []⟩

/-- What others left beside the runs: a file in the way of the first run of a day, and a run without files. -/
def foreign : Directory := [("2024010101123015", .file []), ("2024010141000000", .dir [])]

/-- A run of an earlier year whose key is no document. -/
def unreadable : Directory :=
  [("2023010101000000", .dir [(reportName, .file [0x7B, 0x7D]), (keyName, .file [0x7B])])]

theorem isAt_diskWith (runs : Directory) : (diskWith runs).IsAt store.runs ["store", "runs"] runs := ⟨rfl, rfl⟩

theorem storable_report : store.Storable report :=
  storable_of_isStorable (by decide +kernel) (by decide +kernel) (by decide +kernel)

theorem store_report_of_freeId {d : Disk} {place : List String} {runs : Directory} {time : Moment} {id : String}
    (hat : d.IsAt store.runs place runs) (htime : time.IsShown) (hfree : freeId time runs = some id) : ∃ a b,
    (store.store time report).run d =
      (.ok id, { d with top := d.top.put place (.dir (runs.put id (.dir (filesOf a b)))) }) := by
  have hout := storable_report.outcome htime hfree
  obtain ⟨a, b, -, -, -, happly⟩ := plan_eq_ok hout
  refine ⟨a, b, ?_⟩
  rw [run_store hat.mkdirs hat hout, happly]

/-- An earlier time of the same day. -/
def morning : Moment := { now with hour := 9, minute := 0, second := 0 }

theorem isShown_now : now.IsShown := ⟨by decide, by decide, by decide, by decide, by decide, by decide⟩

theorem isShown_morning : morning.IsShown := ⟨by decide, by decide, by decide, by decide, by decide, by decide⟩

/-- The report is stored twice beside the entries of others. -/
theorem outcomes_foreign : store.outcomes (diskWith foreign) [(now, report), (morning, report)] =
    [.ok "2024010142123015", .ok "2024010143090000"] := by
  have hfirst : freeId now foreign = some "2024010142123015" := by cbv
  have hat := isAt_diskWith foreign
  obtain ⟨a, b, hstore⟩ := store_report_of_freeId hat isShown_now hfirst
  have hsecond : freeId morning (foreign.put "2024010142123015" (.dir (filesOf a b))) = some "2024010143090000" := by
    cbv
  have hat' := hat.put (@Node.within_put (.dir (filesOf a b)) _ _ (digits_of_freeId isShown_now hfirst).2)
  obtain ⟨a', b', hstore'⟩ := store_report_of_freeId hat' isShown_morning hsecond
  rw [outcomes, hstore, outcomes, hstore', outcomes]

/-- A file stands where the first run of the day would be, and a run without files has the number 41. The next
two runs get the numbers 42 and 43, the second one at an earlier time of day, and are listed in this order. -/
theorem stored_in_order_foreign :
    idsOf (store.outcomes (diskWith foreign) [(now, report), (morning, report)]) =
      ["2024010142123015", "2024010143090000"] ∧
    Text.before "2024010142123015" "2024010143090000" = true ∧
    ∃ ids, store.list (store.after (diskWith foreign) [(now, report), (morning, report)]) [] = .ok ids ∧
      ["2024010142123015", "2024010143090000"].Sublist ids := by
  have hids : idsOf (store.outcomes (diskWith foreign) [(now, report), (morning, report)]) =
      ["2024010142123015", "2024010143090000"] := by rw [outcomes_foreign]; rfl
  have hat := isAt_diskWith foreign
  have hkey : report.HoldsKey := by unfold Report.HoldsKey; decide +kernel
  have hshown : ∀ c ∈ [(now, report), (morning, report)], c.1.IsShown := by simp [isShown_now, isShown_morning]
  obtain ⟨-, hpairs, hlisted, hlists⟩ := stored_in_order (holds_of_find hat.find) hshown (by simp [morning])
  obtain ⟨ids, hids'⟩ := hlists (fits_of_width (by decide +kernel)) (ready_of_isAt hat) (by simp [hkey]) []
    (eq_ok_of_toOption (by decide +kernel))
  rw [hids] at hpairs hlisted
  exact ⟨hids, (List.pairwise_cons.1 hpairs).1 _ (List.mem_singleton_self _), ids, hids', hlisted ids hids'⟩

/-- The list of all runs cannot be had while there is a complete run whose key is no document, whatever was stored
since. -/
theorem stored_in_order_unreadable : store.Holds (diskWith unreadable) unreadable ∧
    idsOf (store.outcomes (diskWith unreadable) [(now, report)]) = ["2024010101123015"] ∧
    ∀ ids, store.list (store.after (diskWith unreadable) [(now, report)]) [] ≠ .ok ids := by
  have hat := isAt_diskWith unreadable
  have hfree : freeId now unreadable = some "2024010101123015" := by cbv
  obtain ⟨a, b, hstore⟩ := store_report_of_freeId hat isShown_now hfree
  have hat' := hat.put (@Node.within_put (.dir (filesOf a b)) _ _ (digits_of_freeId isShown_now hfree).2)
  refine ⟨holds_of_find hat.find, ?_, fun ids hids => ?_⟩
  · rw [outcomes, hstore, outcomes]
    rfl
  · rw [after, hstore, after, list_of_known hat' (by simp)] at hids
    have hrun := @Directory.get?_put_of_ne unreadable "2024010101123015" "2023010101000000" (.dir (filesOf a b))
      (by decide)
    obtain ⟨own, hown, -⟩ := exists_lists hids (mem_names_of_get? (hrun.trans rfl) (by decide))
    rw [lists_congr hat hat' (by decide) hrun] at hown
    have hfault : (store.lists (diskWith unreadable) [] "2023010101000000").toOption = none := by decide +kernel
    rw [hown] at hfault
    cases hfault

end Corpus.Nested

end Assay
