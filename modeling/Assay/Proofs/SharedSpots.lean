import Assay.Proofs.WellFormedCorpus

/-!
# Defects that share a spot

The spot of a defect is its category with its place. Defects are grouped by their spots, and a group of two or
more is a problem unless one of them is marked as an intended duplicate. One mark therefore speaks for its whole
group: of two defects at one spot one is marked, or a third one there is (`Corpus.marked_of_load`), and a third
one can hide that two others are not (`Corpus.unmarked_pair_loads`).
-/

namespace Assay

/-- What duplicates have in common: the category and the place. -/
def Defect.spot (g : Defect) : Category × Location := (g.category, g.location)

namespace Annotation

variable {d : Defect} {ds : List Defect} {v : Category × Location} {vs : List (Category × Location)}

theorem sameSpot_iff {a b : Defect} : sameSpot a b = true ↔ a.spot = b.spot := by
  simp [sameSpot, Defect.spot]

/-! ## Groups -/

/-- The defects at a spot. -/
def atSpot (ds : List Defect) (v : Category × Location) : List Defect := ds.filter (·.spot = v)

@[simp]
theorem mem_atSpot {g : Defect} : g ∈ atSpot ds v ↔ g ∈ ds ∧ g.spot = v := by simp [atSpot]

theorem atSpot_eq_nil_iff : atSpot ds v = [] ↔ ∀ g ∈ ds, g.spot ≠ v := by simp [atSpot]

theorem atSpot_append_self : atSpot (ds ++ [d]) d.spot = atSpot ds d.spot ++ [d] := by simp [atSpot]

theorem atSpot_append_of_ne (h : d.spot ≠ v) : atSpot (ds ++ [d]) v = atSpot ds v := by simp [atSpot, h]

theorem any_sameSpot (hv : atSpot ds v ≠ []) : (atSpot ds v).any (sameSpot d) = true ↔ d.spot = v := by
  simp only [List.any_eq_true, mem_atSpot, sameSpot_iff]
  constructor
  · rintro ⟨g, ⟨-, hg⟩, hd⟩
    exact hd.trans hg
  · intro hd
    obtain ⟨g, hg⟩ := List.exists_mem_of_ne_nil _ hv
    exact ⟨g, mem_atSpot.1 hg, hd.trans (mem_atSpot.1 hg).2.symm⟩

/-- One more defect joins the group of its spot, or starts one behind the others. -/
theorem joinGroup_map (hnodup : vs.Nodup) (hvs : ∀ v ∈ vs, atSpot ds v ≠ [])
    (hnew : d.spot ∉ vs → atSpot ds d.spot = []) :
    joinGroup d (vs.map (atSpot ds)) =
      (if d.spot ∈ vs then vs else vs ++ [d.spot]).map (atSpot (ds ++ [d])) := by
  induction vs with
  | nil => simp [joinGroup, atSpot_append_self, hnew]
  | cons v vs ih =>
    obtain ⟨hv, hnodup⟩ := List.nodup_cons.1 hnodup
    obtain ⟨hfilled, hvs⟩ := List.forall_mem_cons.1 hvs
    rw [List.map_cons, joinGroup]
    by_cases hd : d.spot = v
    · subst hd
      have hothers : vs.map (atSpot (ds ++ [d])) = vs.map (atSpot ds) := by
        refine List.map_congr_left fun w hw => atSpot_append_of_ne ?_
        rintro rfl
        exact hv hw
      simp [any_sameSpot hfilled, atSpot_append_self, hothers]
    · rw [if_neg (by simpa [any_sameSpot hfilled] using hd), ih hnodup hvs fun h => hnew (by simp [hd, h])]
      by_cases hmem : d.spot ∈ vs <;> simp [hd, hmem, atSpot_append_of_ne hd]

/-- The groups of a list are its defects at each spot that occurs, for each spot once. -/
theorem exists_spots (ds : List Defect) : ∃ vs : List (Category × Location), vs.Nodup ∧
    (∀ v, v ∈ vs ↔ ∃ g ∈ ds, g.spot = v) ∧ groups ds = vs.map (atSpot ds) := by
  induction ds using List.reverseRecOn with
  | nil => exact ⟨[], by simp, by simp, rfl⟩
  | append_singleton ds d ih =>
    obtain ⟨vs, hnodup, hvs, hgroups⟩ := ih
    have hfilled : ∀ v ∈ vs, atSpot ds v ≠ [] := by
      intro v hv hnil
      obtain ⟨g, hg, hspot⟩ := (hvs v).1 hv
      exact atSpot_eq_nil_iff.1 hnil g hg hspot
    have hnew : d.spot ∉ vs → atSpot ds d.spot = [] := by
      intro hd
      refine atSpot_eq_nil_iff.2 fun g hg hspot => hd ((hvs _).2 ⟨g, hg, hspot⟩)
    refine ⟨if d.spot ∈ vs then vs else vs ++ [d.spot], ?_, ?_, ?_⟩
    · split
      · exact hnodup
      next hd =>
        refine List.nodup_append.2 ⟨hnodup, List.nodup_singleton _, fun w hw u hu => ?_⟩
        rw [List.mem_singleton.1 hu]
        exact ne_of_mem_of_not_mem hw hd
    · intro v
      by_cases hd : d.spot ∈ vs
      · rw [if_pos hd]
        simp only [List.mem_append, List.mem_singleton, or_and_right, exists_or, exists_eq_left, ← hvs]
        exact ⟨Or.inl, fun h => h.elim id fun h => h ▸ hd⟩
      · rw [if_neg hd]
        simp only [List.mem_append, List.mem_singleton, or_and_right, exists_or, exists_eq_left, ← hvs]
        exact or_congr Iff.rfl eq_comm
    · rw [groups, List.foldl_append, List.foldl_cons, List.foldl_nil, ← groups, hgroups]
      exact joinGroup_map hnodup hfilled hnew

/-! ## The rule -/

theorem groupProblem?_eq_none_iff {sampleId : String} {g : List Defect} :
    groupProblem? sampleId g = none ↔ (2 ≤ g.length → ∃ m ∈ g, m.intentionalDuplicate = true) := by
  unfold groupProblem?
  split
  next d e rest =>
    have hlength : 2 ≤ (d :: e :: rest).length := by simp
    simp only [hlength, true_imp_iff, ← List.any_eq_true]
    split <;> simp_all
  next hshort =>
    have hlength : ¬ 2 ≤ g.length := by
      match g, hshort with
      | [], _ => simp
      | [_], _ => simp
      | d :: e :: rest, hshort => exact absurd rfl (hshort d e rest)
    simp [hlength]

/-- Nothing is wrong with the spots of some defects exactly if at each spot with two of them one is marked. -/
theorem spotProblems_eq_nil_iff {sampleId : String} : spotProblems sampleId ds = [] ↔
    ∀ v, 2 ≤ (atSpot ds v).length → ∃ m ∈ ds, m.spot = v ∧ m.intentionalDuplicate = true := by
  obtain ⟨vs, -, hvs, hgroups⟩ := exists_spots ds
  simp only [spotProblems, List.filterMap_eq_nil_iff, List.mem_mergeSort, hgroups, List.forall_mem_map,
    groupProblem?_eq_none_iff, mem_atSpot, and_assoc]
  constructor
  · intro h v hlength
    by_cases hv : v ∈ vs
    · exact h v hv hlength
    · have hnil : atSpot ds v = [] := atSpot_eq_nil_iff.2 fun g hg hspot => hv ((hvs v).2 ⟨g, hg, hspot⟩)
      simp [hnil] at hlength
  · intro h v _
    exact h v

/-- Two different defects at one spot are two. -/
theorem two_le_length_atSpot {a b : Defect} (ha : a ∈ ds) (hb : b ∈ ds) (hne : a ≠ b) (hspot : a.spot = b.spot) :
    2 ≤ (atSpot ds a.spot).length := by
  have ha' : a ∈ atSpot ds a.spot := mem_atSpot.2 ⟨ha, rfl⟩
  have hb' : b ∈ atSpot ds a.spot := mem_atSpot.2 ⟨hb, hspot.symm⟩
  match h : atSpot ds a.spot with
  | [] => simp [h] at ha'
  | [c] =>
    rw [h, List.mem_singleton] at ha' hb'
    exact absurd (ha'.trans hb'.symm) hne
  | _ :: _ :: _ => simp

theorem spotProblems_of_sampleOf {count : String → Except Fault (Option ℕ)} {path : String} {header : Header}
    {s : Sample} (h : sampleOf count path header = .ok (s, [])) : spotProblems s.id s.defects = [] := by
  obtain ⟨ds, own, -, rfl, hproblems⟩ := sampleOf_eq_ok.1 h
  have hspots := (List.append_eq_nil_iff.1 hproblems.symm).2
  rw [spotProblems_eq_nil_iff] at hspots ⊢
  have hperm := List.mergeSort_perm ds fun a b => !b.before a
  intro v hlength
  have hlength' : (atSpot ds v).length = (atSpot (ds.mergeSort fun a b => !b.before a) v).length :=
    (hperm.filter _).length_eq.symm
  obtain ⟨m, hm, hmarked⟩ := hspots v (hlength' ▸ hlength)
  exact ⟨m, List.mem_mergeSort.2 hm, hmarked⟩

end Annotation

namespace Corpus

/-- **Marks on shared spots.** Where two defects of a sample have the same category at the same place, one that is
there is marked as an intended duplicate. If no third one is there, it is one of the two. -/
theorem marked_of_load {d : Disk} {p : Path} {c : Corpus} (h : load d p = .ok c) :
    ∀ s ∈ c.samples, ∀ a ∈ s.defects, ∀ b ∈ s.defects, a ≠ b → a.category = b.category → a.location = b.location →
      (∃ m ∈ s.defects, m.category = a.category ∧ m.location = a.location ∧ m.intentionalDuplicate = true) ∧
      ((∀ m ∈ s.defects, m.category = a.category → m.location = a.location → m = a ∨ m = b) →
        a.intentionalDuplicate = true ∨ b.intentionalDuplicate = true) := by
  intro s hs a ha b hb hne hcategory hlocation
  obtain ⟨path, header, hsample⟩ := sampleOf_of_load h s hs
  have hspots := Annotation.spotProblems_eq_nil_iff.1 ( Annotation.spotProblems_of_sampleOf hsample)
  have hspot : a.spot = b.spot := Prod.ext hcategory hlocation
  obtain ⟨m, hm, hmspot, hmarked⟩ := hspots a.spot ( Annotation.two_le_length_atSpot ha hb hne hspot)
  obtain ⟨hmcategory, hmlocation⟩ := Prod.mk.inj hmspot
  refine ⟨⟨m, hm, hmcategory, hmlocation, hmarked⟩, fun honly => ?_⟩
  rcases honly m hm hmcategory hmlocation with rfl | rfl
  · exact .inl hmarked
  · exact .inr hmarked

/-! ## Two unmarked defects beside a marked one -/

namespace Shared

/-- Three entries of one category and line, the last of which is marked. -/
def text : String :=
  "[\x7b\"id\":\"x1\",\"category\":\"uaf\",\"file\":\"a.c\",\"line\":\"1\"\x7d," ++
    "\x7b\"id\":\"x2\",\"category\":\"uaf\",\"file\":\"a.c\",\"line\":\"1\"\x7d," ++
    "\x7b\"id\":\"x3\",\"category\":\"uaf\",\"file\":\"a.c\",\"line\":\"1\",\"intentionalDuplicate\":\"true\"\x7d]"

def source : List UInt8 := Utf8.encode text

/-- A corpus with one annotation and the file that it is about. -/
def disk : Disk :=
  { top := .dir [("corpus", .dir [("a.c", .file [0x78, 0x0A]), ("s.gt.json", .file source)])]
    cwd := [] }

/-- The place of the corpus. -/
def top : Path := Path.ofNames ["corpus"]

/-- The fields that the entries share, under a name of their own. -/
def fields (id : String) : List (String × Value) :=
  [("id", .text id), ("category", .text "uaf"), ("file", .text "a.c"), ("line", .text "1")]

/-- What the annotation says. -/
def items : List Value :=
  [.record (fields "x1"), .record (fields "x2"), .record (fields "x3" ++ [("intentionalDuplicate", .text "true")])]

/-- A defect of the annotation. -/
def defect (id : String) (marked : Bool) : Defect :=
  { id, sampleId := "s", category := .useAfterFree
    location := ⟨"a.c", 1, 1, none⟩
    severity := .medium, rules := [], note := "", conditional := false
    intentionalDuplicate := marked }

/-- The sample of the annotation. -/
def sample : Sample := ⟨"s", "c", [defect "x1" false, defect "x2" false, defect "x3" true], "s.gt.json"⟩

theorem idProblems_sample : Annotation.idProblems "s" sample.defects = [] :=
  Annotation.idProblems_eq_nil_iff.2 (by decide)

/-- The marked defect speaks for all three. -/
theorem spotProblems_sample : Annotation.spotProblems "s" sample.defects = [] := by
  have hshared : ∀ g ∈ sample.defects, g.spot = (.useAfterFree, ⟨"a.c", 1, 1, none⟩) := by decide
  refine Annotation.spotProblems_eq_nil_iff.2 fun v hlength => ?_
  obtain ⟨g, hg⟩ := List.exists_mem_of_length_pos (by omega : 0 < ( Annotation.atSpot sample.defects v).length)
  obtain ⟨hmem, rfl⟩ := Annotation.mem_atSpot.1 hg
  exact ⟨defect "x3" true, by simp [sample], (hshared g hmem).symm, rfl⟩

set_option maxRecDepth 10000 in
theorem documentOf_source : documentOf top ("s.gt.json", source) = .ok (.ok (.list items)) := by
  have htext : Disk.textOf source = .ok text :=
    Disk.textOf_of_whole (.of_all (by decide))
  exact documentOf_of_json htext (by decide +kernel) (by cbv)

theorem sampleOf_source :
    Annotation.sampleOf (lineCount disk top) "s.gt.json" ⟨"s", "", items⟩ = .ok (sample, []) := by
  have hdefects : Annotation.defectsOf (lineCount disk top) "s" "s.gt.json" 0 items = .ok (sample.defects, []) :=
    eq_ok_of_toOption (by decide)
  have hlanguage : Annotation.sampleLanguage "" sample.defects = "c" := by decide
  have hsorted : (sample.defects.mergeSort fun a b => !b.before a) = sample.defects :=
    List.mergeSort_of_pairwise (by decide)
  refine Annotation.sampleOf_eq_ok.2 ⟨_, _, hdefects, ?_, ?_⟩
  · rw [hsorted, hlanguage, sample]
  · rw [idProblems_sample, spotProblems_sample]
    rfl

/-- The corpus is loaded with all three defects. -/
theorem load_disk : ∃ c, load disk top = .ok c ∧ c.samples = [sample] := by
  have hfiles : requireAnnotations disk top = .ok [("s.gt.json", source)] := by
    have hother : Annotation.isName "a.c" = false := by decide
    have hown : Annotation.isName "s.gt.json" = true := by decide
    have hfind : disk.find? top = .ok (some (.dir [("a.c", .file [0x78, 0x0A]), ("s.gt.json", .file source)])) := rfl
    refine requireAnnotations_of_find hfind ?_
    simp [annotationFiles, Node.files, Node.filesIn, hother, hown, Path.joined, top, Path.ofNames]
  have hheader : Annotation.headerOf "s.gt.json" (.list items) = .ok (.ok ⟨"s", "", items⟩) := by
    have hid : Annotation.sampleIdOf "s.gt.json" = "s" := by decide
    rw [← hid]
    rfl
  obtain ⟨version, hversion⟩ : ∃ version, versionOf disk top [("s.gt.json", source)] = .ok version := by
    have hmanifest : disk.isFile (top.child manifestName) = .ok false := eq_ok_of_toOption (by decide)
    have hentry : ∃ entry, entryOf ("s.gt.json", source) = .ok entry := ⟨_, rfl⟩
    obtain ⟨entry, hentry⟩ := hentry
    refine ⟨"sha256:" ++ String.ofList ((Digest.sha256 [entry].flatten).take digestWidth), ?_⟩
    simp only [versionOf, hmanifest, bind, Except.bind, Bool.not_false, if_true, digestVersion, signature,
      List.mapM_cons, List.mapM_nil, hentry]
    rfl
  exact ⟨_, load_of_file rfl hfiles documentOf_source hheader sampleOf_source hversion, rfl⟩

end Shared

/-- Two unmarked defects share a spot, so a third one there is marked. -/
theorem marked_of_load_shared : ∃ c, load Shared.disk Shared.top = .ok c ∧ Shared.sample ∈ c.samples ∧
    ∃ m ∈ Shared.sample.defects, m.category = .useAfterFree ∧ m.location = ⟨"a.c", 1, 1, none⟩ ∧
      m.intentionalDuplicate = true := by
  obtain ⟨c, hload, hsamples⟩ := Shared.load_disk
  have hs : Shared.sample ∈ c.samples := by simp [hsamples]
  refine ⟨c, hload, hs, ?_⟩
  exact (marked_of_load hload _ hs (Shared.defect "x1" false) (by simp [Shared.sample]) (Shared.defect "x2" false)
    (by simp [Shared.sample]) (by decide) rfl rfl).1

/-- A marked defect lets two others through that share its spot and are not marked. -/
theorem unmarked_pair_loads : ∃ c, load Shared.disk Shared.top = .ok c ∧ ∃ s ∈ c.samples, ∃ a ∈ s.defects,
    ∃ b ∈ s.defects, a ≠ b ∧ a.category = b.category ∧ a.location = b.location ∧
      a.intentionalDuplicate = false ∧ b.intentionalDuplicate = false := by
  obtain ⟨c, hload, hsamples⟩ := Shared.load_disk
  refine ⟨c, hload, Shared.sample, by simp [hsamples], Shared.defect "x1" false, by simp [Shared.sample],
    Shared.defect "x2" false, by simp [Shared.sample], by decide, rfl, rfl, rfl, rfl⟩

end Corpus

end Assay
