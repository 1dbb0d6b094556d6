import Assay.Proofs.InputOrder
import Assay.Proofs.StoredRuns

/-!
# Listed runs

Whether a run is listed depends on nothing but what its name stands for in the directory of all runs
(`RunStore.lists_congr`). A new run therefore leaves the list of the others as it was, and goes to its place in
that list if it is complete and its key holds what is asked for (`RunStore.list_put`).
-/

namespace Assay

/-! ## Names in order -/

namespace Diagnostics

variable {a b : List String}

/-- Some of the names that are in order are in order. -/
theorem ascending_of_sublist (h : a.Sublist (ascending b)) : ascending a = a :=
  List.mergeSort_of_pairwise ((ranking_names.pairwise b).sublist h)

end Diagnostics

/-! ## Names of runs -/

/-- What is asked for of a report's key. -/
def Report.satisfies (r : Report) (filters : RunStore.Filters) : Bool :=
  filters.all fun (name, wanted) => wanted.all fun text => r.key.lookup name == some text

namespace RunStore

section
variable {s : RunStore} {d d' : Disk} {r : Report} {id name : String} {ids l m : List String} {runs runs' files : Directory}
  {place place' : List String} {filters : Filters}

theorem Digits.isRunName (h : Digits idLength id) : isRunName id = true := by
  rw [RunStore.isRunName, h.isDigits, Bool.true_or]

theorem names_nil : names [] = [] := Diagnostics.ascending_of_sublist (List.nil_sublist (Diagnostics.ascending []))

theorem mem_names (h : name ∈ names runs) : isRunName name = true ∧ (runs.get? name).isSome := by
  rw [names, Diagnostics.ascending, List.mem_mergeSort, List.mem_map] at h
  obtain ⟨⟨own, n⟩, hmem, rfl⟩ := h
  obtain ⟨hmem, hname⟩ := List.mem_filter.1 hmem
  refine ⟨(Bool.and_eq_true_iff.1 hname).2, ?_⟩
  exact List.lookup_isSome_iff.2 ⟨_, hmem, beq_self_eq_true _⟩

theorem ne_parent_of_mem_names (h : name ∈ names runs) : name ≠ ".." := by
  rintro rfl
  exact absurd (mem_names h).1 (by decide)

theorem names_eq (runs : Directory) :
    names runs = Diagnostics.ascending ((runs.filter fun e => e.2.isDir && isRunName e.1).map (·.1)) := rfl

/-- A new run makes room for its name among those of the others. -/
theorem names_put (hnew : runs.get? id = none) (hid : isRunName id = true) :
    ∃ l m, names (runs.put id (.dir files)) = l ++ id :: m ∧ names runs = l ++ m := by
  rw [names_eq, Directory.put_of_new hnew, List.filter_append, List.map_append]
  have hown : List.filter (fun e => Node.isDir e.2 && RunStore.isRunName e.1) [(id, Node.dir files)] =
      [(id, .dir files)] := by simp [Node.isDir, hid]
  rw [hown]
  obtain ⟨l, m, hwith, hwithout⟩ := Diagnostics.ranking_names.mergeSort_insert id
    ((runs.filter fun e => e.2.isDir && RunStore.isRunName e.1).map (·.1)) []
  rw [List.append_nil] at hwithout
  exact ⟨l, m, hwith, hwithout⟩

/-! ## One run -/

/-- Whether a run is listed: it is complete, and its key holds what is asked for. -/
def lists (s : RunStore) (d : Disk) (filters : Filters) (id : String) : Except Fault Bool := do
  if !(← s.isComplete d id) then return false
  admits (← Document.readRecord d (s.file id keyName)) filters

theorem listFrom_cons : s.listFrom d filters (id :: l) = (do
    let own ← s.lists d filters id
    let others ← s.listFrom d filters l
    return if own then id :: others else others) := by
  rw [listFrom, lists]
  rcases s.isComplete d id with e | complete
  · rfl
  cases complete with
  | false =>
    simp only [bind, Except.bind, Bool.not_false, if_true, pure, Except.pure]
    cases s.listFrom d filters l <;> rfl
  | true =>
    simp only [bind, Except.bind, Bool.not_true, Bool.false_eq_true, if_false]
    cases Document.readRecord d (s.file id keyName) <;> rfl

theorem listFrom_append : s.listFrom d filters (l ++ m) = (do
    let first ← s.listFrom d filters l
    let others ← s.listFrom d filters m
    return first ++ others) := by
  induction l with
  | nil =>
    rw [List.nil_append, listFrom]
    simp only [bind, Except.bind, List.nil_append, pure, Except.pure]
    cases s.listFrom d filters m <;> rfl
  | cons id l ih =>
    rw [List.cons_append, listFrom_cons, listFrom_cons, ih]
    simp only [bind, Except.bind]
    rcases s.lists d filters id with e | own
    · rfl
    rcases s.listFrom d filters l with e | first
    · rfl
    rcases s.listFrom d filters m with e | others
    · rfl
    cases own <;> rfl

theorem listFrom_congr (h : ∀ id ∈ l, s.lists d' filters id = s.lists d filters id) :
    s.listFrom d' filters l = s.listFrom d filters l := by
  induction l with
  | nil => rfl
  | cons id l ih =>
    rw [listFrom_cons, listFrom_cons, h id List.mem_cons_self, ih fun id hid => h id (List.mem_cons_of_mem _ hid)]

theorem sublist_of_listFrom (h : s.listFrom d filters l = .ok ids) : ids.Sublist l := by
  induction l generalizing ids with
  | nil =>
    cases h
    exact .refl _
  | cons id l ih =>
    rw [listFrom_cons] at h
    obtain ⟨own, -, h⟩ := bind_eq_ok.1 h
    obtain ⟨others, hothers, h⟩ := bind_eq_ok.1 h
    cases own with
    | true =>
      cases h
      exact (ih hothers).cons_cons id
    | false =>
      cases h
      exact (ih hothers).cons id

/-- Whether a run is listed depends on nothing but what its name stands for. -/
theorem lists_congr (hat : d.IsAt s.runs place runs) (hat' : d'.IsAt s.runs place' runs') (hid : id ≠ "..")
    (h : runs'.get? id = runs.get? id) : s.lists d' filters id = s.lists d filters id := by
  have hfind : ∀ name, name ≠ ".." → d'.find (s.file id name) = d.find (s.file id name) := by
    intro name hname
    rw [file, hat'.find_file hid hname, hat.find_file hid hname, Disk.fileIn, Disk.fileIn, h]
  have hreport := hfind reportName (by decide)
  have hkey := hfind keyName (by decide)
  simp only [lists, isComplete, Document.readRecord, Disk.isFile, Disk.find?, Disk.readText, Disk.readBytes, hreport, hkey]

/-- A run without a key is not listed. -/
theorem lists_of_torn (hat : d.IsAt s.runs place runs) (hid : Digits idLength id) (hrun : runs.get? id = some (.dir files))
    (htorn : Directory.get? files keyName = none) (hshort : Disk.width (s.file id keyName).toText ≤ Disk.maxPath) :
    s.lists d filters id = .ok false := by
  have hfind : d.find (s.file id keyName) = .error .notFound := by
    rw [find_file hat hid hrun (by decide) hshort, htorn]
  have hfile : d.isFile (s.file id keyName) = .ok false := by
    rw [Disk.isFile, Disk.find?, hfind]
    rfl
  rw [lists, isComplete, hfile]
  rfl

/-- A stored key holds what its report satisfies. -/
theorem admits_of_reordered {w : Value} (hw : w.Reordered r.keyValue) (hknown : ∀ f ∈ filters, f.1 ∈ Report.keyFields) :
    admits w filters = .ok (r.satisfies filters) := by
  have hkeys : r.key.map (·.1) = Report.keyFields := rfl
  have hnodup : ((r.key.map fun e => (e.1, Value.text e.2)).map (·.1)).Nodup := by
    rw [List.map_map]
    exact (by decide : Report.keyFields.Nodup)
  obtain ⟨hmap, hfields⟩ := Value.Reordered.fields hw hnodup
  induction filters with
  | nil => rfl
  | cons f rest ih =>
    obtain ⟨name, wanted⟩ := f
    have hrest := ih fun f hf => hknown f (List.mem_cons_of_mem _ hf)
    rw [Report.satisfies, List.all_cons]
    cases wanted with
    | none => exact hrest
    | some text =>
      obtain ⟨entry, hmem, hentry⟩ := List.mem_map.1 (hkeys ▸ hknown _ List.mem_cons_self : name ∈ r.key.map (·.1))
      obtain ⟨own, hown⟩ := Option.isSome_iff_exists.1
        (List.lookup_isSome_iff.2 ⟨entry, hmem, beq_iff_eq.2 hentry.symm⟩ : (r.key.lookup name).isSome)
      obtain ⟨before, after, hsplit, -⟩ := List.lookup_eq_some_iff.1 hown
      have hget : w.get name = .text own := by
        refine (hfields (name, .text own) (List.mem_map.2 ⟨(name, own), ?_, rfl⟩)).eq_of_isScalar trivial
        rw [hsplit]
        exact List.mem_append_right _ List.mem_cons_self
      have htext : (w.get name).toText = own := by rw [hget]; rfl
      rw [admits, Value.requireFields, if_pos hmap]
      simp only [bind, Except.bind, htext, hown, Option.all_some]
      by_cases heq : own = text
      · rw [if_pos heq, hrest, heq]
        simp [Report.satisfies]
      · rw [if_neg heq]
        simp [heq, pure, Except.pure]

/-! ## All runs -/

theorem unknown_eq_nil (hknown : ∀ f ∈ filters, f.1 ∈ Report.keyFields) :
    (filters.map (·.1)).filter (fun name => !Report.keyFields.contains name) = [] := by
  simpa [List.filter_eq_nil_iff] using fun a b h => hknown (a, b) h

theorem list_of_known (hat : d.IsAt s.runs place runs) (hknown : ∀ f ∈ filters, f.1 ∈ Report.keyFields) :
    s.list d filters = s.listFrom d filters (names runs) := by
  rw [list, Disk.find?, hat.find]
  simp only [unknown_eq_nil hknown]
  rfl

theorem list_of_missing (hfind : d.find? s.runs = .ok none) (hknown : ∀ f ∈ filters, f.1 ∈ Report.keyFields) :
    s.list d filters = .ok [] := by
  rw [list, hfind]
  simp only [unknown_eq_nil hknown]
  rfl

/-- Names that are no key fields are rejected, whatever is stored. -/
theorem list_of_unknown (h : ¬ ∀ f ∈ filters, f.1 ∈ Report.keyFields) : ∃ e, ∀ d, s.list d filters = .error e := by
  let unknown := (filters.map (·.1)).filter fun name => !Report.keyFields.contains name
  have hsome : (!unknown.isEmpty) = true := by
    rw [Bool.not_eq_true', List.isEmpty_eq_false_iff, Ne, List.filter_eq_nil_iff]
    simpa using h
  exact ⟨.rejected (.unknownKeyFields (Diagnostics.ascending unknown)), fun d => if_pos hsome⟩

theorem ascending_of_list (h : s.list d filters = .ok ids) : Diagnostics.ascending ids = ids := by
  by_cases hknown : ∀ f ∈ filters, f.1 ∈ Report.keyFields
  · rw [list] at h
    simp only [unknown_eq_nil hknown] at h
    obtain ⟨found, -, h⟩ := bind_eq_ok.1 h
    split at h
    · exact Diagnostics.ascending_of_sublist (sublist_of_listFrom h)
    · cases h
      exact Diagnostics.ascending_of_sublist (List.nil_sublist (Diagnostics.ascending []))
  · obtain ⟨e, he⟩ := @list_of_unknown s filters hknown
    rw [he] at h
    cases h

/-- What is listed depends on nothing but what is in the directory of all runs. -/
theorem list_congr (hat : d.IsAt s.runs place runs) (hat' : d'.IsAt s.runs place' runs) :
    s.list d' filters = s.list d filters := by
  by_cases hknown : ∀ f ∈ filters, f.1 ∈ Report.keyFields
  · rw [list_of_known hat hknown, list_of_known hat' hknown]
    exact listFrom_congr fun name hname => lists_congr hat hat' (ne_parent_of_mem_names hname) rfl
  · obtain ⟨e, he⟩ := @list_of_unknown s filters hknown
    rw [he, he]

/-- A name that stands for nothing is not listed. -/
theorem not_mem_of_list (hat : d.IsAt s.runs place runs) (hnew : runs.get? id = none)
    (h : s.list d filters = .ok ids) : id ∉ ids := by
  intro hid
  by_cases hknown : ∀ f ∈ filters, f.1 ∈ Report.keyFields
  · rw [list_of_known hat hknown] at h
    have hsome := (mem_names ((sublist_of_listFrom h).subset hid)).2
    rw [hnew] at hsome
    cases hsome
  · obtain ⟨e, he⟩ := @list_of_unknown s filters hknown
    rw [he] at h
    cases h

/-- **A new run.** A new run goes to its place in the list if it is listed, and leaves the list of the others as
it was. -/
theorem list_put {b : Bool} (hat : d.IsAt s.runs place runs)
    (hat' : d'.IsAt s.runs place' (Directory.put id (.dir files) runs)) (hid : Digits idLength id)
    (hnew : runs.get? id = none) (hlists : (∀ f ∈ filters, f.1 ∈ Report.keyFields) → s.lists d' filters id = .ok b) :
    s.list d' filters = (s.list d filters).map fun ids => if b then Diagnostics.ascending (id :: ids) else ids := by
  by_cases hknown : ∀ f ∈ filters, f.1 ∈ Report.keyFields
  case neg =>
    obtain ⟨e, he⟩ := @list_of_unknown s filters hknown
    rw [he, he]
    rfl
  obtain ⟨l, m, hwith, hwithout⟩ := @names_put id runs files hnew hid.isRunName
  have hother : ∀ other ∈ l ++ m, s.lists d' filters other = s.lists d filters other := by
    intro other hmem
    rw [← hwithout] at hmem
    have hne : other ≠ id := by
      rintro rfl
      have hsome := (mem_names hmem).2
      rw [hnew] at hsome
      cases hsome
    exact lists_congr hat hat' (ne_parent_of_mem_names hmem) (Directory.get?_put_of_ne hne)
  have hl := listFrom_congr fun other h => hother other (List.mem_append_left _ h)
  have hm := listFrom_congr fun other h => hother other (List.mem_append_right _ h)
  have hsorted : names (Directory.put id (.dir files) runs) = Diagnostics.ascending (l ++ id :: m) := by
    rw [← hwith, names, Diagnostics.ascending_of_sublist (.refl _)]
  rw [list_of_known hat hknown, list_of_known hat' hknown, hwith, hwithout, listFrom_append, listFrom_append,
    listFrom_cons, hlists hknown, hl, hm]
  cases hfirst : s.listFrom d filters l with
  | error e => rfl
  | ok first =>
    cases hothers : s.listFrom d filters m with
    | error e => rfl
    | ok others =>
      cases b with
      | false => rfl
      | true =>
        have hsub : (first ++ id :: others).Sublist (Diagnostics.ascending (l ++ id :: m)) := by
          rw [← hsorted, hwith]
          exact (sublist_of_listFrom hfirst).append ((sublist_of_listFrom hothers).cons_cons id)
        have horder : first ++ id :: others = Diagnostics.ascending (id :: (first ++ others)) := by
          rw [← Diagnostics.ascending_of_sublist hsub]
          exact Diagnostics.ascending_eq_of_perm List.perm_middle
        exact congrArg Except.ok horder

end

end RunStore

end Assay
