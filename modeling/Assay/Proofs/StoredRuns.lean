import Assay.Proofs.Decoding
import Assay.Proofs.DiskPlaces
import Assay.Proofs.JsonDocuments
import Assay.Proofs.RunIds
import Assay.RunStore

/-!
# Stored runs

A run that was stored is read from the disk that storing left: the path of its report leads to the bytes
of its document (`RunStore.file_of_store`), the bytes are the text that was written, and the text is read
as the report if reading gives back the values that were written (`RunStore.load_of_store`).
-/

namespace Assay

/-- Whether a fault says that a path leads to no place. -/
def Fault.isOfPlace : Fault → Bool
  | .file _ | .rejected .embeddedNull => true
  | _ => false

namespace RunStore

section
variable {α : Type} {s : RunStore} {d d' made : Disk} {now : Moment} {r : Report} {id name : String} {runs files : Directory}
  {place : List String} {f : Directory → Except Fault α × Directory} {bytes : List UInt8} {p : Path} {v : Value}

/-! ## What storing does -/

theorem run_act (f : Disk → Except Fault α × Disk) : (OnDisk.act f).run d = f d := by
  change OnDisk.act f d = f d
  have hact : OnDisk.act f d = match f d with
      | (.ok a, d') => (.ok a, d')
      | (.error e, d') => (.error e, d') := by
    rcases h : f d with ⟨e | a, d'⟩ <;>
      simp only [OnDisk.act, bind, ExceptT.bind, ExceptT.mk, StateT.bind, get, getThe, MonadStateOf.get, liftM,
        monadLift, MonadLift.monadLift, ExceptT.lift, StateT.get, pure, Functor.map, StateT.map, ExceptT.bindCont, h] <;>
      rfl
  rw [hact]
  rcases f d with ⟨e | a, d'⟩ <;> rfl

/-- Changing the directory of all runs, once it is made. -/
theorem run_onRuns (hmade : d.mkdirs s.runs = (.ok (), made)) (hat : made.IsAt s.runs place runs) :
    (s.onRuns f).run d = ((f runs).1, { made with top := made.top.put place (.dir (f runs).2) }) := by
  rw [onRuns, run_act]
  simp only [hmade, hat.located, hat.find]

theorem isOfPlace_of_mkdirs {e : Fault} (h : d.mkdirs p = (.error e, d')) : e.isOfPlace = true := by
  unfold Disk.mkdirs at h
  split at h
  · cases h
    rfl
  split at h
  · cases h
    rfl
  obtain ⟨o, top, hmade⟩ : ∃ o top, Disk.makeDirs d.top (if p.isAbsolute then [] else d.cwd) p.names = (o, top) :=
    ⟨_, _, rfl⟩
  rw [hmade] at h
  cases o with
  | error g =>
    cases h
    rfl
  | ok u => cases h

/-- The parts of a change that found the directory of all runs. -/
theorem onRuns_eq {o : Except Fault α} (ho : ∀ e, o = .error e → e.isOfPlace = false) (h : (s.onRuns f).run d = (o, d')) :
    ∃ made place runs runs', d.mkdirs s.runs = (.ok (), made) ∧ made.IsAt s.runs place runs ∧
      f runs = (o, runs') ∧ d' = { made with top := made.top.put place (.dir runs') } := by
  rw [onRuns, run_act] at h
  split at h
  next e made hmade =>
    obtain ⟨rfl, -⟩ := Prod.mk.inj h
    have hplace := isOfPlace_of_mkdirs hmade
    rw [ho e rfl] at hplace
    cases hplace
  next made hmade =>
    split at h
    next place runs hplace hruns =>
      obtain ⟨place', hat⟩ := Disk.isAt_of_find hruns
      cases hplace.symm.trans hat.located
      obtain ⟨ho, hd⟩ := Prod.mk.inj h
      exact ⟨made, place, runs, (f runs).2, hmade, hat, Prod.ext ho rfl, hd.symm⟩
    next e he =>
      obtain ⟨rfl, -⟩ := Prod.mk.inj h
      cases ho _ rfl
    · obtain ⟨rfl, -⟩ := Prod.mk.inj h
      cases ho _ rfl

theorem bytesFor_eq_ok (h : bytesFor p v = .ok bytes) :
    ∃ text, Json.document v = .ok text ∧ Disk.width p.toText ≤ Disk.maxPath ∧ Utf8.encode? text = .ok bytes := by
  obtain ⟨text, htext, h⟩ := bind_eq_ok.1 h
  refine ⟨text, htext, ?_⟩
  split at h
  · cases h
  · exact ⟨by omega, mapError_eq_ok.1 h⟩

/-- The files of a stored run. -/
def filesOf (report key : List UInt8) : Directory := [(reportName, .file report), (keyName, .file key)]

theorem apply_steps (a b : List UInt8) :
    [Step.create id, .write id reportName a, .write id keyName b].foldl Step.apply runs =
      runs.put id (.dir (filesOf a b)) := by
  simp only [List.foldl_cons, List.foldl_nil, Step.apply, Directory.get?_put_self, Directory.put_put]
  rfl

/-- The parts of a plan that comes to an id: the id is free, and both documents have bytes. -/
theorem plan_eq_ok {place : Path} (h : (plan now place r runs).outcome = .ok id) :
    ∃ a b, freeId now runs = some id ∧
      bytesFor ((place.child id).child reportName) (r.withRunId id).toValue = .ok a ∧
        bytesFor ((place.child id).child keyName) (r.withRunId id).keyValue = .ok b ∧
          (plan now place r runs).apply runs = runs.put id (.dir (filesOf a b)) := by
  unfold plan at h ⊢
  split at h
  next free hfree =>
    rw [hfree]
    simp only [planUnder] at h ⊢
    split at h
    · cases h
    next hshort =>
    simp only [if_neg hshort]
    split at h
    next a b ha hb =>
      cases h
      exact ⟨a, b, rfl, ha, hb, apply_steps a b⟩
    · cases h
    · cases h
  · cases h

/-- Storing by a plan that comes to an id. -/
theorem run_store (hmade : d.mkdirs s.runs = (.ok (), made)) (hat : made.IsAt s.runs place runs)
    (hout : (plan now s.runs r runs).outcome = .ok id) : (s.store now r).run d =
      (.ok id, { made with top := made.top.put place (.dir ((plan now s.runs r runs).apply runs)) }) := by
  rw [store, run_onRuns hmade hat]
  simp only [hout]

/-- The parts of a call that stored a report. -/
theorem store_eq_ok (h : (s.store now r).run d = (.ok id, d')) :
    ∃ made place runs a b, d.mkdirs s.runs = (.ok (), made) ∧ made.IsAt s.runs place runs ∧
      freeId now runs = some id ∧ bytesFor (s.file id reportName) (r.withRunId id).toValue = .ok a ∧
        bytesFor (s.file id keyName) (r.withRunId id).keyValue = .ok b ∧
          d' = { made with top := made.top.put place (.dir (runs.put id (.dir (filesOf a b)))) } := by
  obtain ⟨made, place, runs, runs', hmade, hat, hplan, rfl⟩ := onRuns_eq (fun _ he => by cases he) h
  obtain ⟨hout, rfl⟩ := Prod.mk.inj hplan
  obtain ⟨a, b, hfree, ha, hb, happly⟩ := plan_eq_ok hout
  exact ⟨made, place, runs, a, b, hmade, hat, hfree, ha, hb, by rw [happly]⟩

theorem bytesFor_of_isStorable (hp : Disk.width p.toText + Disk.stagingWidth ≤ Disk.maxPath)
    (hv : Json.isStorable true v = true) : ∃ bytes, bytesFor p v = .ok bytes := by
  obtain ⟨text, bytes, htext, hbytes⟩ := Json.bytes_of_isStorable hv
  refine ⟨bytes, ?_⟩
  simp [bytesFor, htext, if_neg (Nat.not_lt.2 hp), hbytes, bind, Except.bind, Except.mapError]

/-- A report is stored under an id if its documents are kept in files and their paths are short enough. -/
theorem outcome_planUnder {place : Path} (hrun : Disk.width (place.child id).toText ≤ Disk.maxPath)
    (hreport : Disk.width ((place.child id).child reportName).toText + Disk.stagingWidth ≤ Disk.maxPath)
    (hkey : Disk.width ((place.child id).child keyName).toText + Disk.stagingWidth ≤ Disk.maxPath)
    (hr : Json.isStorable true (r.withRunId id).toValue = true)
    (hk : Json.isStorable true (r.withRunId id).keyValue = true) : (planUnder place id r).outcome = .ok id := by
  obtain ⟨a, ha⟩ := bytesFor_of_isStorable hreport hr
  obtain ⟨b, hb⟩ := bytesFor_of_isStorable hkey hk
  simp only [planUnder, if_neg (Nat.not_lt.2 hrun), ha, hb]

theorem plan_of_freeId {place : Path} (hfree : freeId now runs = some id) :
    plan now place r runs = planUnder place id r := by rw [plan, hfree]

/-! ## What is read -/

theorem Digits.ne_parent (h : Digits idLength id) : id ≠ ".." := by
  rintro rfl
  exact absurd h.length (by decide)

theorem Digits.no_null {width : ℕ} (h : Digits width id) : '\x00' ∉ id.toList := fun hc =>
  absurd (h.isDigit _ hc) (by decide)

theorem Digits.short (h : Digits idLength id) : Disk.width id ≤ Disk.maxName := by
  have hwidth := Disk.width_ofList_le id.toList
  rw [String.ofList_toList, h.length] at hwidth
  exact hwidth.trans (by decide)

/-- The path of a file of a run leads into the directory of the run. -/
theorem find_file (hat : d.IsAt s.runs place runs) (hid : Digits idLength id) (hrun : runs.get? id = some (.dir files))
    (hname : name ∈ [reportName, keyName]) (hshort : Disk.width (s.file id name).toText ≤ Disk.maxPath) :
    d.find (s.file id name) = match Directory.get? files name with
      | some n => .ok n
      | none => .error .notFound := by
  have hplain : name ≠ ".." ∧ '\x00' ∉ name.toList ∧ Disk.width name ≤ Disk.maxName := by
    rcases List.mem_pair.1 hname with rfl | rfl <;> decide
  have hnull : [id, name].any (·.toList.contains '\x00') = false := by simp [hid.no_null, hplain.2.1]
  rw [file] at hshort ⊢
  rw [hat.find_file hid.ne_parent hplain.1, hnull, if_neg (by decide), if_neg (Nat.not_lt.2 hshort), Disk.fileIn,
    if_neg (Nat.not_lt.2 hid.short), hrun]
  simp only [if_neg (Nat.not_lt.2 hplain.2.2)]
  cases Directory.get? files name <;> rfl

/-- The id of a run that was stored is made of digits. -/
theorem digits_of_freeId (hnow : now.IsShown) (h : freeId now runs = some id) :
    Digits idLength id ∧ runs.get? id = none := by
  obtain ⟨k, hk, rfl, hnew⟩ := freeId_eq_some h
  exact ⟨digits_idOf hnow hk, hnew⟩

/-- **Stored files.** After a run is stored, the paths of its files lead to the bytes of their documents. -/
theorem file_of_store (hnow : now.IsShown) (h : (s.store now r).run d = (.ok id, d')) :
    ∃ a b, Digits idLength id ∧ bytesFor (s.file id reportName) (r.withRunId id).toValue = .ok a ∧
      d'.find (s.file id reportName) = .ok (.file a) ∧
        bytesFor (s.file id keyName) (r.withRunId id).keyValue = .ok b ∧ d'.find (s.file id keyName) = .ok (.file b) := by
  obtain ⟨made, place, runs, a, b, -, hat, hfree, ha, hb, rfl⟩ := store_eq_ok h
  obtain ⟨hdigits, hnew⟩ := digits_of_freeId hnow hfree
  obtain ⟨-, -, hreport, -⟩ := bytesFor_eq_ok ha
  obtain ⟨-, -, hkey, -⟩ := bytesFor_eq_ok hb
  -- The directory of all runs only gains a name, so that its path leads to it as before.
  have hat' := hat.put (@Node.within_put (.dir (filesOf a b)) runs id hnew)
  refine ⟨a, b, hdigits, ha, ?_, hb, ?_⟩
  · rw [find_file hat' hdigits Directory.get?_put_self (by decide) hreport]
    rfl
  · rw [find_file hat' hdigits Directory.get?_put_self (by decide) hkey]
    rfl

/-- The values of a document that was written are read from its bytes. -/
theorem readRecord_of_bytesFor {q : Path} (hfind : d.find p = .ok (.file bytes)) (hbytes : bytesFor q v = .ok bytes)
    (hjson : Json.RoundTrips v) : ∃ w, Document.readRecord d p = .ok w ∧ w.Reordered v := by
  obtain ⟨text, htext, -, hencode⟩ := bytesFor_eq_ok hbytes
  obtain ⟨w, hread, hw⟩ := hjson text htext
  have htextOf : d.readText p = .ok text := by
    rw [Disk.readText, Disk.readBytes_eq_ok.2 hfind]
    exact Disk.textOf_encode (Json.written_of_document htext) hencode
  refine ⟨w, ?_, hw⟩
  rw [Document.readRecord, htextOf]
  simp only [bind, Except.bind, hread]
  rfl

/-- **Stored reports.** A report that was stored is read again under its id, if its document gives back
the values that were written. -/
theorem load_of_store (hr : (r.withRunId id).Sound) (hnow : now.IsShown)
    (h : (s.store now r).run d = (.ok id, d')) (hjson : Json.RoundTrips (r.withRunId id).toValue) :
    ∃ r', s.load d' id = .ok r' ∧ r'.Same (r.withRunId id) := by
  obtain ⟨a, b, hdigits, hbytes, hfind, -, -⟩ := file_of_store hnow h
  obtain ⟨w, hrecord, hw⟩ := readRecord_of_bytesFor hfind hbytes hjson
  obtain ⟨r', hr', hsame⟩ := Report.ofValue_reordered hr hw
  refine ⟨r', ?_, hsame⟩
  have hfile : d'.isFile (s.file id reportName) = .ok true := Disk.isFile_eq_true.2 ⟨a, hfind⟩
  have hid : r'.runId = some id := hsame.runId
  simp [load, hdigits.strip, hdigits.isDigits, hfile, hrecord, hr', hid, bind, Except.bind, pure, Except.pure]

end

end RunStore

end Assay
