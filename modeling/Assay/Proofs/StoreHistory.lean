import Assay.Proofs.ReportStorage
import Assay.Proofs.RunListing

/-!
# The history of a store

A call of `store` makes the directory of its run, then the report appears in it, and at last the key. A call that
is cut off before its last step leaves at most a directory without a key (`RunStore.Begun`), which is not
listed. So whatever calls were completed, cut off or refused, the list holds the runs that it held at the start
and those of the completed calls, and every report is read as before (`RunStore.append_only`).
-/

namespace Assay

/-- The texts of a report's key are held code point by code point. -/
def Report.HoldsKey (r : Report) : Prop := ∀ e ∈ r.key, Text.isHeld e.2 = true

namespace RunStore

/-- Stores a report now, but is cut off after the first steps. -/
def cutOff (s : RunStore) (now : Moment) (r : Report) (count : ℕ) : OnDisk Unit :=
  s.onRuns fun runs => (.ok (), ((plan now s.runs r runs).steps.take count).foldl Step.apply runs)

/-- How a call can end. It leaves a disk, and the run that it stored if it was completed. -/
inductive Call (s : RunStore) (d : Disk) : Option (String × Report) → Disk → Prop
  | completed {now : Moment} {r : Report} {id : String} {d' : Disk} : now.IsShown → r.HoldsKey →
      (s.store now r).run d = (.ok id, d') → Call s d (some (id, r)) d'
  /-- The key has not appeared yet. -/
  | cut {now : Moment} {r : Report} {count : ℕ} {d' : Disk} : now.IsShown → count < 3 →
      (s.cutOff now r count).run d = (.ok (), d') → Call s d none d'
  /-- The call was refused, such as by a store that is full for the day. -/
  | failed {now : Moment} {r : Report} {e : Fault} {d' : Disk} : now.IsShown → e.isOfPlace = false →
      (s.store now r).run d = (.error e, d') → Call s d none d'

/-- A disk is reached from another one by calls, which completed some runs, the last one first. -/
inductive Reached (s : RunStore) (start : Disk) : List (String × Report) → Disk → Prop
  | start : Reached s start [] start
  | call {done : List (String × Report)} {new : Option (String × Report)} {d d' : Disk} :
      Reached s start done d → Call s d new d' → Reached s start (new.toList ++ done) d'

/-- The path of the key of every run is short enough for a disk to be asked for it. -/
def Fits (s : RunStore) : Prop :=
  ∀ id, Digits idLength id → Disk.width (s.file id keyName).toText ≤ Disk.maxPath

/-- The directory of all runs is there, or it is made without anything in it, if it can be made at all. -/
def Ready (s : RunStore) (d : Disk) : Prop := ∀ made, d.mkdirs s.runs = (.ok (), made) →
  made = d ∨ d.find? s.runs = .ok none ∧ made.find s.runs = .ok (.dir [])

/-- Every file is as it was, and every report that was read is read again. -/
structure Keeps (s : RunStore) (d d' : Disk) : Prop where
  files : ∀ p bytes, d.readBytes p = .ok bytes → d'.readBytes p = .ok bytes
  reports : ∀ given r, s.load d given = .ok r → s.load d' given = .ok r

section
variable {s : RunStore} {start d d' made : Disk} {now : Moment} {r : Report} {id : String} {count : ℕ}
  {runs runs' files : Directory} {place : List String} {filters : Filters} {done : List (String × Report)}
  {new : Option (String × Report)} {st : Step} {sts : List Step}

/-! ## What is kept -/

theorem Keeps.refl (s : RunStore) (d : Disk) : s.Keeps d d := ⟨fun _ _ => id, fun _ _ => id⟩

theorem Keeps.trans {d'' : Disk} (h : s.Keeps d d') (h' : s.Keeps d' d'') : s.Keeps d d'' :=
  ⟨fun p bytes hp => h'.files p bytes (h.files p bytes hp), fun given r hr => h'.reports given r (h.reports given r hr)⟩

/-- A report is read from one file. -/
theorem load_congr {given : String} {bytes : List UInt8}
    (h : d.find (s.file (Text.strip given) reportName) = .ok (.file bytes))
    (h' : d'.find (s.file (Text.strip given) reportName) = .ok (.file bytes)) : s.load d' given = s.load d given := by
  simp only [load, Disk.isFile, Disk.find?, Document.readRecord, Disk.readText, Disk.readBytes, h, h']

theorem exists_file_of_load {given : String} (h : s.load d given = .ok r) :
    ∃ bytes, d.find (s.file (Text.strip given) reportName) = .ok (.file bytes) := by
  rw [← Disk.isFile_eq_true]
  unfold load at h
  simp only at h
  split at h
  · cases h
  · obtain ⟨found, hfound, h⟩ := bind_eq_ok.1 h
    cases found with
    | true => exact hfound
    | false => cases h

/-- A disk that only gained files keeps what was read. -/
theorem keeps_of_within (hw : d.top.Within d'.top) (hcwd : d'.cwd = d.cwd) : s.Keeps d d' := by
  constructor
  · intro p bytes h
    rw [Disk.readBytes_eq_ok] at h ⊢
    exact Disk.find_of_within hw hcwd h
  · intro given r h
    obtain ⟨bytes, hfind⟩ := exists_file_of_load h
    rw [load_congr hfind (Disk.find_of_within hw hcwd hfind), h]

/-- A change that puts names into the directory of all runs keeps what was read. -/
theorem keeps_of_put (hmade : d.mkdirs s.runs = (.ok (), made)) (hat : made.IsAt s.runs place runs)
    (hw : (Node.dir runs).Within (.dir runs')) : s.Keeps d { made with top := made.top.put place (.dir runs') } := by
  obtain ⟨hwithin, hcwd⟩ := Disk.mkdirs_within d s.runs
  rw [hmade] at hwithin hcwd
  exact keeps_of_within (hwithin.trans (.put hat.found hw)) hcwd

/-! ## Calls that are not completed -/

/-- The runs after the first steps for a new run: none was done, or there is a directory without a key. -/
inductive Begun (id : String) (runs : Directory) : Directory → Prop
  | untouched : Begun id runs runs
  | torn {files : Directory} : Directory.get? files keyName = none → Begun id runs (runs.put id (.dir files))

/-- A step of a run that is not its last one. -/
inductive Step.IsEarly (id : String) : Step → Prop
  | create : IsEarly id (.create id)
  | report (bytes : List UInt8) : IsEarly id (.write id reportName bytes)

theorem Begun.step (hnew : runs.get? id = none) (hearly : st.IsEarly id) (h : Begun id runs runs') :
    Begun id runs (st.apply runs') := by
  cases hearly with
  | create =>
    cases h with
    | untouched => exact .torn rfl
    | torn _ =>
      rw [Step.apply, Directory.put_put]
      exact .torn rfl
  | report bytes =>
    cases h with
    | untouched =>
      rw [Step.apply, hnew]
      exact .untouched
    | torn htorn =>
      rw [Step.apply, Directory.get?_put_self]
      simp only [Directory.put_put]
      refine .torn ?_
      rw [Directory.get?_put_of_ne (by decide), htorn]

theorem Begun.steps (hnew : runs.get? id = none) (hearly : ∀ st ∈ sts, st.IsEarly id) (h : Begun id runs runs') :
    Begun id runs (sts.foldl Step.apply runs') := by
  induction sts generalizing runs' with
  | nil => exact h
  | cons st sts ih =>
    exact ih (fun later hlater => hearly later (List.mem_cons_of_mem _ hlater))
      (h.step hnew (hearly st List.mem_cons_self))

/-- The first two steps are not the last one. -/
theorem early_of_planUnder (p : Path) (id : String) (r : Report) :
    ∀ st ∈ (planUnder p id r).steps.take 2, st.IsEarly id := by
  have two : ∀ bytes, ∀ st ∈ [Step.create id, .write id reportName bytes], st.IsEarly id := by
    intro bytes st hst
    rcases List.mem_pair.1 hst with rfl | rfl
    · exact .create
    · exact .report bytes
  unfold planUnder
  simp only
  split
  · nofun
  split
  · exact two _
  · exact two _
  · intro st hst
    exact two [] st (List.mem_cons.2 (.inl (List.mem_singleton.1 hst)))

/-- A plan that fails has no third step. -/
theorem take_of_error {p : Path} {e : Fault} (h : (planUnder p id r).outcome = .error e) :
    (planUnder p id r).steps.take 2 = (planUnder p id r).steps := by
  revert h
  unfold planUnder
  simp only
  split
  · exact fun _ => rfl
  split
  · nofun
  · exact fun _ => rfl
  · exact fun _ => rfl

theorem begun_of_cut {p : Path} (hcount : count < 3) :
    ((plan now p r runs).steps.take count).foldl Step.apply runs = runs ∨
      ∃ id, freeId now runs = some id ∧ Begun id runs (((plan now p r runs).steps.take count).foldl Step.apply runs) := by
  unfold plan
  split
  next id hfree =>
    refine .inr ⟨id, hfree, .steps (freeId_eq_some hfree).choose_spec.2.2 (fun st hst => ?_) .untouched⟩
    have htake : (planUnder p id r).steps.take count = ((planUnder p id r).steps.take 2).take count := by
      rw [List.take_take, Nat.min_eq_left (by omega)]
    rw [htake] at hst
    exact early_of_planUnder p id r st (List.mem_of_mem_take hst)
  · exact .inl (by simp)

theorem begun_of_error {p : Path} {e : Fault} (h : (plan now p r runs).outcome = .error e) :
    (plan now p r runs).apply runs = runs ∨
      ∃ id, freeId now runs = some id ∧ Begun id runs ((plan now p r runs).apply runs) := by
  have hcut := @begun_of_cut now r 2 runs p (by decide)
  unfold plan at h hcut ⊢
  split at h
  next id hfree =>
    simp only [hfree, take_of_error h] at hcut ⊢
    exact hcut
  next hfree => exact .inl (by simp [Plan.apply])

/-! ## The directory of all runs -/

/-- Making the missing directories does not show in a list. -/
theorem list_mkdirs (hready : s.Ready d) (hmade : d.mkdirs s.runs = (.ok (), made)) :
    s.list made filters = s.list d filters := by
  rcases hready made hmade with rfl | ⟨hmissing, hempty⟩
  · rfl
  by_cases hknown : ∀ f ∈ filters, f.1 ∈ Report.keyFields
  · obtain ⟨place, hat⟩ := Disk.isAt_of_find hempty
    rw [list_of_missing hmissing hknown, list_of_known hat hknown]
    exact congrArg (s.listFrom made filters) names_nil
  · obtain ⟨e, he⟩ := @list_of_unknown s filters hknown
    rw [he, he]

theorem width_child_le (p : Path) (name : String) :
    Disk.width (p.child name).toText ≤ Disk.width p.toText + (1 + Disk.width name) := by
  have hslash : ("/" : String).utf8ByteSize = 1 := rfl
  by_cases hempty : p.names = []
  · have hjoined : Path.joined (p.child name).names = name := by
      rw [Path.child, hempty]
      exact String.intercalate_singleton
    rw [Path.toText, if_neg (by simp [Path.child]), hjoined, Path.toText, hempty, Disk.width, Disk.width, Disk.width,
      String.utf8ByteSize_append]
    split
    next h =>
      rw [Path.child, h.1, String.utf8ByteSize_empty]
      omega
    · rw [String.utf8ByteSize_append]
      exact Nat.add_le_add (Nat.le_add_right _ _) (Nat.le_add_left _ _)
  · have hjoined : Path.joined (p.child name).names = Path.joined p.names ++ "/" ++ name := by
      rw [Path.joined, Path.child, String.intercalate_append_of_ne_nil hempty (List.cons_ne_nil _ _),
        String.intercalate_singleton]
      rfl
    rw [Path.toText, if_neg (by simp [Path.child]), hjoined, Path.toText, if_neg fun h => hempty h.2]
    simp only [Disk.width, String.utf8ByteSize_append, hslash, Path.child]
    omega

/-- A store fits on a disk if there is room behind the path of all runs. -/
theorem fits_of_width (h : Disk.width s.runs.toText + 74 ≤ Disk.maxPath) : s.Fits := by
  intro id hid
  have hname := Disk.width_ofList_le id.toList
  rw [String.ofList_toList, hid.length] at hname
  have hrun := width_child_le s.runs id
  have hfile := width_child_le (s.runs.child id) keyName
  have hkey : Disk.width keyName = 8 := rfl
  rw [file]
  unfold idLength at hname
  omega

theorem ready_of_isAt (hat : d.IsAt s.runs place runs) : s.Ready d := by
  intro made hmade
  rw [hat.mkdirs] at hmade
  exact .inl (Prod.mk.inj hmade).2.symm

/-- A path that does not go back is ready everywhere. -/
theorem ready_of_names (hup : ".." ∉ s.runs.names) (d : Disk) : s.Ready d := by
  intro made hmade
  obtain ⟨place, es, hat, hkept⟩ := Disk.isAt_of_mkdirs hup hmade
  exact hkept.imp_right fun ⟨hmissing, hempty⟩ => ⟨hmissing, hempty ▸ hat.find⟩

/-! ## Calls -/

/-- A call that was not completed left the runs as they were, or a directory without a key. -/
theorem Call.torn (h : s.Call d none d') : ∃ made place runs runs', d.mkdirs s.runs = (.ok (), made) ∧
    made.IsAt s.runs place runs ∧ d' = { made with top := made.top.put place (.dir runs') } ∧
      (runs' = runs ∨ ∃ id files, Digits idLength id ∧ runs.get? id = none ∧
        Directory.get? files keyName = none ∧ runs' = runs.put id (.dir files)) := by
  have torn : ∀ {now : Moment} {runs runs' : Directory}, now.IsShown →
      (runs' = runs ∨ ∃ id, freeId now runs = some id ∧ Begun id runs runs') →
        runs' = runs ∨ ∃ id files, Digits idLength id ∧ runs.get? id = none ∧
          Directory.get? files keyName = none ∧ runs' = runs.put id (.dir files) := by
    rintro now runs runs' hnow (rfl | ⟨id, hfree, hbegun⟩)
    · exact .inl rfl
    obtain ⟨hdigits, hnew⟩ := digits_of_freeId hnow hfree
    cases hbegun with
    | untouched => exact .inl rfl
    | @torn files htorn => exact .inr ⟨id, files, hdigits, hnew, htorn, rfl⟩
  cases h with
  | cut hnow hcount hrun =>
    obtain ⟨made, place, runs, runs', hmade, hat, hsteps, rfl⟩ := onRuns_eq (fun _ he => by cases he) hrun
    obtain ⟨-, rfl⟩ := Prod.mk.inj hsteps
    exact ⟨made, place, runs, _, hmade, hat, rfl, torn hnow (begun_of_cut hcount)⟩
  | failed hnow he hrun =>
    obtain ⟨made, place, runs, runs', hmade, hat, hsteps, rfl⟩ :=
      onRuns_eq (fun _ heq => by cases heq; exact he) hrun
    obtain ⟨hout, rfl⟩ := Prod.mk.inj hsteps
    exact ⟨made, place, runs, _, hmade, hat, rfl, torn hnow (begun_of_error hout)⟩

/-- **Calls that are not completed.** They show in no list, and change nothing that was read. -/
theorem Call.list_of_torn (hfits : s.Fits) (hready : s.Ready d) (h : s.Call d none d') :
    (∀ filters, s.list d' filters = s.list d filters) ∧ s.Keeps d d' ∧ s.Ready d' := by
  obtain ⟨made, place, runs, runs', hmade, hat, rfl, rfl | ⟨id, files, hdigits, hnew, htorn, rfl⟩⟩ := h.torn
  · have hat' := hat.put (.refl _)
    refine ⟨fun filters => ?_, keeps_of_put hmade hat (.refl _), ready_of_isAt hat'⟩
    rw [list_congr hat hat', list_mkdirs hready hmade]
  · have hwithin := @Node.within_put (.dir files) runs id hnew
    have hat' := hat.put hwithin
    refine ⟨fun filters => ?_, keeps_of_put hmade hat hwithin, ready_of_isAt hat'⟩
    rw [list_put hat hat' hdigits hnew fun _ =>
      lists_of_torn hat' hdigits Directory.get?_put_self htorn (hfits id hdigits), list_mkdirs hready hmade]
    cases s.list d filters <;> rfl

theorem isStorable_keyValue (h : r.HoldsKey) : Json.isStorable false r.keyValue = true := by
  have hvalues : ∀ e ∈ r.key, Json.keeps false e.2 = true := fun e he => by rw [Json.keeps, h e he]; rfl
  have hkeys : ∀ e ∈ r.key, Json.keeps false e.1 = true := by
    have hfields : ∀ k ∈ Report.keyFields, Json.keeps false k = true := by decide
    exact fun e he => hfields e.1 (List.mem_map_of_mem he : e.1 ∈ r.key.map (·.1))
  have hentries : ∀ {es : List (String × String)}, (∀ e ∈ es, Json.keeps false e.1 = true) →
      (∀ e ∈ es, Json.keeps false e.2 = true) →
        Json.hasStorable false (es.map fun e => (.text e.1, .text e.2)) = true := by
    intro es hkeys hvalues
    induction es with
    | nil => rfl
    | cons e es ih =>
      rw [List.map_cons, Json.hasStorable, Json.isStorable, hkeys e List.mem_cons_self,
        hvalues e List.mem_cons_self, ih (fun e he => hkeys e (List.mem_cons_of_mem _ he)) fun e he =>
        hvalues e (List.mem_cons_of_mem _ he)]
      rfl
  have hkeyValue : r.keyValue = .map (r.key.map fun e => (.text e.1, .text e.2)) := rfl
  rw [hkeyValue, Json.isStorable, hentries hkeys hvalues, Bool.and_true, decide_eq_true_iff]
  exact (by decide : Report.keyFields.Nodup)

theorem isComplete_of_store (hnow : now.IsShown) (h : (s.store now r).run d = (.ok id, d')) :
    s.isComplete d' id = .ok true := by
  obtain ⟨a, b, -, -, hreport, -, hkey⟩ := file_of_store hnow h
  rw [isComplete, Disk.isFile_eq_true.2 ⟨b, hkey⟩]
  exact Disk.isFile_eq_true.2 ⟨a, hreport⟩

/-- The run of a completed call is listed where its key holds what is asked for. -/
theorem lists_of_store (hnow : now.IsShown) (hkey : r.HoldsKey) (h : (s.store now r).run d = (.ok id, d'))
    (hknown : ∀ f ∈ filters, f.1 ∈ Report.keyFields) : s.lists d' filters id = .ok (r.satisfies filters) := by
  obtain ⟨-, b, -, -, -, hbytes, hfind⟩ := file_of_store hnow h
  obtain ⟨w, hread, hw⟩ := readRecord_of_bytesFor hfind hbytes (Json.roundTrips_of_isStorable (isStorable_keyValue hkey))
  rw [lists, isComplete_of_store hnow h]
  simp only [bind, Except.bind, hread]
  exact admits_of_reordered hw hknown

/-- **Completed calls.** The new run goes to its place in the list if its key holds what is asked for. It was not
listed before, and nothing that was read changes. -/
theorem Call.list_of_completed (hready : s.Ready d) (h : s.Call d (some (id, r)) d') :
    (∀ filters, s.list d' filters = (s.list d filters).map fun ids =>
      if r.satisfies filters then Diagnostics.ascending (id :: ids) else ids) ∧
    (∀ filters ids, s.list d filters = .ok ids → id ∉ ids) ∧ s.Keeps d d' ∧ s.Ready d' := by
  cases h with
  | completed hnow hkey hrun =>
    have hlists : ∀ filters : Filters, (∀ f ∈ filters, f.1 ∈ Report.keyFields) →
        s.lists d' filters id = .ok (r.satisfies filters) := fun _ => lists_of_store hnow hkey hrun
    obtain ⟨made, place, runs, a, b, hmade, hat, hfree, -, -, rfl⟩ := store_eq_ok hrun
    obtain ⟨hdigits, hnew⟩ := digits_of_freeId hnow hfree
    have hwithin := @Node.within_put (.dir (filesOf a b)) runs id hnew
    have hat' := hat.put hwithin
    refine ⟨fun filters => ?_, fun filters ids hids => ?_, keeps_of_put hmade hat hwithin, ready_of_isAt hat'⟩
    · rw [list_put hat hat' hdigits hnew (hlists filters), list_mkdirs hready hmade]
    · exact not_mem_of_list hat hnew ((list_mkdirs hready hmade).trans hids)

theorem isAt_of_store (hnow : now.IsShown) (h : (s.store now r).run d = (.ok id, d')) :
    ∃ place runs, d'.IsAt s.runs place runs := by
  obtain ⟨made, place, runs, a, b, -, hat, hfree, -, -, rfl⟩ := store_eq_ok h
  exact ⟨place, _, hat.put (Node.within_put (digits_of_freeId hnow hfree).2)⟩

/-- Every call can be cut off once the directory of all runs is there. -/
theorem Call.exists_cut (hnow : now.IsShown) (r : Report) (hcount : count < 3) (hat : d.IsAt s.runs place runs) :
    ∃ d', s.Call d none d' := by
  have hrun : (s.cutOff now r count).run d = _ := run_onRuns hat.mkdirs hat
  exact ⟨_, .cut hnow hcount hrun⟩

/-! ## Histories -/

/-- The ids of the completed runs whose keys hold what is asked for. -/
def added (filters : Filters) (done : List (String × Report)) : List String :=
  (done.filter fun e => e.2.satisfies filters).map (·.1)

/-- One more completed run goes to its place among those that the history added. -/
theorem ascending_added (ids : List String) (id : String) (r : Report) (filters : Filters)
    (done : List (String × Report)) :
    (if r.satisfies filters then Diagnostics.ascending (id :: Diagnostics.ascending (ids ++ added filters done))
      else Diagnostics.ascending (ids ++ added filters done)) =
    Diagnostics.ascending (ids ++ added filters ((id, r) :: done)) := by
  by_cases hfits : r.satisfies filters = true
  · have hmore : added filters ((id, r) :: done) = id :: added filters done := by simp [added, hfits]
    rw [if_pos hfits, hmore]
    refine Diagnostics.ascending_eq_of_perm (.trans (.cons id (List.mergeSort_perm _ _)) ?_)
    exact List.perm_middle.symm
  · have hsame : added filters ((id, r) :: done) = added filters done := by simp [added, hfits]
    rw [if_neg hfits, hsame]

/-- What every history of calls preserves: the lists hold what they held at the start and what was completed
since, and nothing that was read changes. -/
theorem Reached.invariant (hfits : s.Fits) (hready : s.Ready start) (h : s.Reached start done d) :
    (∀ filters, s.list d filters = (s.list start filters).map fun ids =>
      Diagnostics.ascending (ids ++ added filters done)) ∧ s.Keeps start d ∧ s.Ready d := by
  induction h with
  | start =>
    refine ⟨fun filters => ?_, .refl s start, hready⟩
    cases hlist : s.list start filters with
    | error e => rfl
    | ok ids => simp [Except.map, added, ascending_of_list hlist]
  | @call done new d d' _ hcall ih =>
    obtain ⟨hlist, hkeeps, hready⟩ := ih
    cases new with
    | none =>
      obtain ⟨hsame, hkeeps', hready'⟩ := hcall.list_of_torn hfits hready
      exact ⟨fun filters => (hsame filters).trans (hlist filters), hkeeps.trans hkeeps', hready'⟩
    | some run =>
      obtain ⟨id, r⟩ := run
      obtain ⟨hgains, -, hkeeps', hready'⟩ := hcall.list_of_completed hready
      refine ⟨fun filters => ?_, hkeeps.trans hkeeps', hready'⟩
      rw [hgains, hlist]
      cases s.list start filters with
      | error e => rfl
      | ok ids => exact congrArg Except.ok (ascending_added ids id r filters done)

/-- **Histories.** Whatever calls were completed, cut off or refused, the lists hold what they held at the start
and the completed runs whose keys hold what is asked for, and everything that was read is read again. One more
call that is not completed shows in no list. One more completed call adds its run to the lists that ask for what
its key holds, and to no other list. -/
theorem append_only (hfits : s.Fits) (hready : s.Ready start) (h : s.Reached start done d) :
    ((∀ filters, s.list d filters = (s.list start filters).map fun ids =>
      Diagnostics.ascending (ids ++ added filters done)) ∧ s.Keeps start d) ∧
    (∀ d', s.Call d none d' → (∀ filters, s.list d' filters = s.list d filters) ∧ s.Keeps d d') ∧
    ∀ id r d', s.Call d (some (id, r)) d' →
      (∀ filters, s.list d' filters = (s.list d filters).map fun ids =>
        if r.satisfies filters then Diagnostics.ascending (id :: ids) else ids) ∧
      (∀ filters ids, s.list d filters = .ok ids → id ∉ ids) ∧ s.Keeps d d' := by
  obtain ⟨hlist, hkeeps, hready⟩ := h.invariant hfits hready
  refine ⟨⟨hlist, hkeeps⟩, fun d' hcall => ?_, fun id r d' hcall => ?_⟩
  · obtain ⟨hsame, hkeeps', -⟩ := hcall.list_of_torn hfits hready
    exact ⟨hsame, hkeeps'⟩
  · obtain ⟨hgains, hnew, hkeeps', -⟩ := hcall.list_of_completed hready
    exact ⟨hgains, hnew, hkeeps'⟩

end

/-- A report is stored beside the corpus, and a later call is cut off after its directory was made: the report is
listed under the name of its tool, and under no other. -/
theorem append_only_nested : ∃ d d',
    Reached Corpus.Nested.store Corpus.Nested.disk [("2024010101123015", Corpus.Nested.report)] d ∧
      Corpus.Nested.store.Call d none d' ∧
      Corpus.Nested.store.list d' [("tool", some "jsonl")] = .ok ["2024010101123015"] ∧
        Corpus.Nested.store.list d' [("tool", some "cppcheck")] = .ok [] := by
  have hfits : Corpus.Nested.store.Fits := fits_of_width (by decide +kernel)
  have hready : Corpus.Nested.store.Ready Corpus.Nested.disk := ready_of_names (by decide) _
  have hnow : Corpus.Nested.now.IsShown := ⟨by decide, by decide, by decide, by decide, by decide, by decide⟩
  have hkey : Corpus.Nested.report.HoldsKey := by unfold Report.HoldsKey; decide +kernel
  obtain ⟨d, hstore⟩ := Corpus.Nested.store_report
  have hreached := Reached.start.call (.completed hnow hkey hstore)
  obtain ⟨place, runs, hat⟩ := isAt_of_store hnow hstore
  obtain ⟨d', hcut⟩ := Call.exists_cut hnow Corpus.Nested.report (by decide : 1 < 3) hat
  obtain ⟨⟨hlist, -⟩, htorn, -⟩ := append_only hfits hready hreached
  obtain ⟨hsame, -⟩ := htorn _ hcut
  have hempty : ∀ wanted, Corpus.Nested.store.list Corpus.Nested.disk [("tool", some wanted)] = .ok [] := fun wanted =>
    list_of_missing rfl (by simp [Report.keyFields])
  refine ⟨_, _, hreached, hcut, ?_, ?_⟩
  · have hadded : added [("tool", some "jsonl")] [("2024010101123015", Corpus.Nested.report)] = ["2024010101123015"] := by
      decide +kernel
    rw [hsame, hlist, hempty]
    simp only [Option.toList_some, List.append_nil, Except.map, List.nil_append, hadded]
    exact congrArg Except.ok (List.mergeSort_singleton _)
  · have hadded : added [("tool", some "cppcheck")] [("2024010101123015", Corpus.Nested.report)] = [] := by
      decide +kernel
    rw [hsame, hlist, hempty]
    simp only [Option.toList_some, List.append_nil, Except.map, hadded]
    exact congrArg Except.ok List.mergeSort_nil

end RunStore

end Assay
