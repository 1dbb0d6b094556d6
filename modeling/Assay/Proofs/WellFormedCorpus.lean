import Assay.Proofs.LoadedCorpus
import Assay.Proofs.PathAgreement
import Assay.Proofs.Ranking

/-!
# Loaded corpora are well formed

Reading collects every problem of every annotation and a corpus is loaded only if there is none. So nothing
was dropped on the way: an entry without a defect, a document without a sample and a second sample of one
name each leave a problem behind. What is left is sorted, and its names are different.
-/

namespace Assay

/-! ## The order of defects and samples -/

namespace Defect

/-- The place of a defect: its file, its first line, then its name. -/
def placeKey (g : Defect) : (List ℕ ×ₗ String) ×ₗ ℤ ×ₗ (List ℕ ×ₗ String) :=
  toLex (Text.rankKey g.file, toLex (g.location.lineStart, Text.rankKey g.id))

theorem before_iff {a b : Defect} : a.before b = true ↔ a.placeKey < b.placeKey := by
  simp [before, placeKey, Prod.Lex.toLex_lt_toLex, Text.before_iff, Text.rankKey_inj]

theorem not_before_iff {a b : Defect} : (!b.before a) = true ↔ a.placeKey ≤ b.placeKey := by
  rw [Bool.not_eq_true', ← Bool.not_eq_true, before_iff, not_lt]

theorem id_of_placeKey {a b : Defect} (h : a.placeKey = b.placeKey) : a.id = b.id := by
  have hrest := (Prod.mk.inj (toLex_inj.1 h)).2
  exact Text.rankKey_inj.1 (Prod.mk.inj (toLex_inj.1 hrest)).2

end Defect

/-! ## Entries -/

namespace Annotation

variable {count : String → Except Fault (Option ℕ)}

/-- Some defects are those of the entries of a list in a file, each read from one entry. The first entry is
number `index`. -/
def ReadFrom (count : String → Except Fault (Option ℕ)) (sampleId path : String) (index : ℕ) (entries : List Value)
    (ds : List Defect) : Prop :=
  List.Forall₂ (fun e g => defectOf count sampleId (path ++ "#" ++ toString e.2) e.1 = .ok (.ok g))
    (entries.zipIdx index) ds

theorem readFrom_of_defectsOf {sampleId path : String} {index : ℕ} {entries : List Value} {ds : List Defect}
    (h : defectsOf count sampleId path index entries = .ok (ds, [])) :
    ReadFrom count sampleId path index entries ds := by
  induction entries generalizing index ds with
  | nil =>
    cases h
    exact .nil
  | cons raw rest ih =>
    obtain ⟨r, hr, h⟩ := bind_eq_ok.1 h
    obtain ⟨⟨more, ps⟩, hmore, h⟩ := bind_eq_ok.1 h
    obtain ⟨g, rfl, -⟩ | ⟨own, rfl, hown⟩ := defectOf_cases hr
    · cases h
      exact .cons hr (ih hmore)
    · exact absurd (List.append_eq_nil_iff.1 (Prod.mk.inj (Except.ok.inj h)).2).1 hown

/-- Names are no problem exactly if they are different. -/
theorem idProblems_eq_nil_iff {sampleId : String} {ds : List Defect} :
    idProblems sampleId ds = [] ↔ (ds.map Defect.id).Nodup := by
  simp only [idProblems, List.filterMap_eq_nil_iff, Diagnostics.mem_canonical, List.nodup_iff_count_le_one]
  constructor
  · intro h id
    by_cases hid : id ∈ ds.map Defect.id
    · by_contra hmany
      simpa [Nat.lt_of_not_le hmany] using h id hid
    · simp [List.count_eq_zero_of_not_mem hid]
  · intro h id _
    simp [Nat.not_lt.2 (h id)]

/-! ## Samples -/

/-- The entries that the document of an annotation lists: its items, or those of its field `findings`. -/
def Lists (doc : Value) (entries : List Value) : Prop :=
  doc.list? = some entries ∨ doc.list? = none ∧ doc.isMap = true ∧
    ((doc.get "findings").isNull = true ∧ entries = [] ∨
      (doc.get "findings").isNull = false ∧ (doc.get "findings").list? = some entries)

theorem lists_of_headerOf {path : String} {doc : Value} {h : Header} (hh : headerOf path doc = .ok (.ok h)) :
    Lists doc h.defects := by
  unfold headerOf at hh
  split at hh
  next items hitems =>
    cases hh
    exact .inl hitems
  next hnone =>
    have hlist : doc.list? = none := by
      cases hl : doc.list? with
      | none => rfl
      | some items => exact absurd hl (hnone items)
    split at hh
    · cases hh
    next hmap =>
    obtain ⟨id, -, hh⟩ := bind_eq_ok.1 hh
    obtain ⟨language, -, hh⟩ := bind_eq_ok.1 hh
    simp only at hh
    refine .inr ⟨hlist, by simpa using hmap, ?_⟩
    split at hh
    next items hitems =>
      cases hh
      split at hitems
      next hnull =>
        cases hitems
        exact .inl ⟨hnull, rfl⟩
      next hnull => exact .inr ⟨by simpa using hnull, hitems⟩
    · cases hh

end Annotation

/-- A sample holds all that an annotation file says: the file is read as a document, and the defects of the
sample are those of the entries that the document lists, each read from one entry. -/
structure Sample.Holds (count : String → Except Fault (Option ℕ)) (root : Path) (s : Sample)
    (file : String × List UInt8) : Prop where
  annotation : s.annotation = file.1
  entries : ∃ doc entries ds, Corpus.documentOf root file = .ok (.ok doc) ∧ Annotation.Lists doc entries ∧
    Annotation.ReadFrom count s.id file.1 0 entries ds ∧ s.defects.Perm ds

/-- The defects of a sample have different names and stand in the order of their places. -/
structure Sample.Tidy (s : Sample) : Prop where
  distinct : (s.defects.map Defect.id).Nodup
  sorted : s.defects.Pairwise fun a b => a.before b = true

namespace Annotation

variable {count : String → Except Fault (Option ℕ)} {root : Path} {file : String × List UInt8}

/-- A sample without problems holds all that its file says, and is tidy. -/
theorem holds_of_sampleOf {doc : Value} {h : Header} {s : Sample}
    (hdoc : Corpus.documentOf root file = .ok (.ok doc)) (hh : headerOf file.1 doc = .ok (.ok h))
    (hs : sampleOf count file.1 h = .ok (s, [])) : s.Holds count root file ∧ s.id = h.sampleId ∧ s.Tidy := by
  obtain ⟨ds, own, hds, rfl, hproblems⟩ := sampleOf_eq_ok.1 hs
  rw [eq_comm, List.append_eq_nil_iff, List.append_eq_nil_iff] at hproblems
  obtain ⟨⟨rfl, hids⟩, -⟩ := hproblems
  have hperm := List.mergeSort_perm ds fun a b => !b.before a
  have hdistinct := idProblems_eq_nil_iff.1 hids
  refine ⟨⟨rfl, doc, h.defects, ds, hdoc, lists_of_headerOf hh, readFrom_of_defectsOf hds, hperm⟩, rfl, ?_, ?_⟩
  · exact (hperm.map Defect.id).nodup_iff.2 hdistinct
  · have hstrict := Ranking.strict Defect.placeKey Defect.id (fun _ _ => Defect.not_before_iff)
      (fun _ _ => Defect.id_of_placeKey) hdistinct
    exact hstrict.imp fun hab => Defect.before_iff.2 hab

end Annotation

namespace Corpus

variable {count : String → Except Fault (Option ℕ)} {root : Path}

/-- Without a problem every file adds one sample, which has a new name. -/
theorem holds_of_readSamples {files : List (String × List UInt8)} {known samples : List Sample}
    (h : readSamples count root known files = .ok (samples, [])) (hknown : (known.map Sample.id).Nodup) :
    (samples.map Sample.id).Nodup ∧ ∃ new, samples = known ++ new ∧ (∀ s ∈ new, s.Tidy) ∧
      List.Forall₂ (fun s file => s.Holds count root file) new files := by
  induction files generalizing known with
  | nil =>
    cases h
    exact ⟨hknown, [], by simp, by simp, .nil⟩
  | cons file rest ih =>
    obtain ⟨problem, ps, -, hproblems⟩ | ⟨doc, header, s, own, ps, hdoc, hheader, hnew, hs, hmore, hproblems⟩ :=
      readSamples_cons_cases h
    · cases hproblems
    · obtain ⟨rfl, rfl⟩ := List.nil_eq_append_iff.1 hproblems
      obtain ⟨hholds, hid, htidy⟩ := Annotation.holds_of_sampleOf hdoc hheader hs
      have hnodup : ((known ++ [s]).map Sample.id).Nodup := by
        rw [List.map_append, List.map_singleton]
        refine hknown.append (List.nodup_singleton _) (List.disjoint_singleton.2 ?_)
        rwa [hid]
      obtain ⟨hids, new, rfl, htidies, hall⟩ := ih hmore hnodup
      exact ⟨hids, s :: new, by simp, List.forall_mem_cons.2 ⟨htidy, htidies⟩, .cons hholds hall⟩

/-! ## Corpora -/

/-- A defect of a corpus: its category is canonical, its file is a file below the corpus, and its range lies
in that file. -/
structure IsPlaced (d : Disk) (root : Path) (g : Defect) : Prop where
  id : g.id ≠ ""
  category : g.category ≠ .unknown
  filled : g.file ≠ ""
  relative : (Path.ofText g.file).isAbsolute = false
  inside : ".." ∉ (Path.ofText g.file).names
  found : d.isFile (root.append (Path.ofText g.file)) = .ok true
  range : ∃ text, d.readLossy (root.append (Path.ofText g.file)) = .ok text ∧ 1 ≤ g.location.lineStart ∧
    g.location.lineStart ≤ g.location.lineEnd ∧ g.location.lineEnd ≤ (Text.lines text.toList).length
  column : ∀ k, g.location.column = some k → 1 ≤ k

theorem isPlaced_of_annotated {d : Disk} {root : Path} {g : Defect} (h : g.Annotated (lineCount d root)) :
    IsPlaced d root g := by
  have hsafe := h.safe
  simp only [Path.isSafeRelative, Bool.and_eq_true, bne_iff_ne, ne_eq, Bool.not_eq_true', List.contains_eq_mem,
    decide_eq_false_iff_not] at hsafe
  obtain ⟨⟨hfilled, hrelative⟩, hinside⟩ := hsafe
  obtain ⟨n, hcount, hfits⟩ := h.fits
  obtain ⟨found, hfound, hcount⟩ := bind_eq_ok.1 hcount
  cases found with
  | false => cases hcount
  | true =>
    obtain ⟨text, htext, hcount⟩ := bind_eq_ok.1 hcount
    cases hcount
    exact {
      id := h.id
      category := by simpa [Category.isCanonical] using h.category
      filled := hfilled
      relative := hrelative
      inside := hinside
      found := hfound
      range := ⟨text, htext, h.first, h.ordered, hfits⟩
      column := h.column }

/-- **Loaded corpora.** The samples of a loaded corpus have different names and stand in their order, and
each is tidy. Every defect has its place in a file of the corpus. Every annotation file below the corpus has
one sample, which holds all that the file says. -/
theorem wellFormed_of_load {d : Disk} {p : Path} {c : Corpus} (h : load d p = .ok c) :
    (c.samples.map Sample.id).Nodup ∧ (c.samples.Pairwise fun a b => Text.before a.id b.id = true) ∧
      (∀ s ∈ c.samples, s.Tidy) ∧ (∀ g ∈ c.listed, IsPlaced d c.path g) ∧
      ∃ files samples, requireAnnotations d c.path = .ok files ∧ c.samples.Perm samples ∧
        List.Forall₂ (fun s file => s.Holds (lineCount d c.path) c.path file) samples files := by
  obtain ⟨files, samples, hfiles, hsamples, hsorted⟩ := load_eq_ok h
  obtain ⟨hids, new, hnew, htidy, hall⟩ := holds_of_readSamples hsamples List.nodup_nil
  cases hnew
  have hperm : c.samples.Perm new := hsorted ▸ List.mergeSort_perm new _
  refine ⟨(hperm.map Sample.id).nodup_iff.2 hids, ?_, ?_, ?_, files, new, hfiles, hperm, hall⟩
  · have hstrict := Ranking.strict (fun s => Text.rankKey s.id) Sample.id (fun _ _ => Text.not_before_iff)
      (fun _ _ => Text.rankKey_inj.1) hids
    rw [hsorted]
    exact hstrict.imp fun hab => Text.before_iff.2 hab
  · intro s hs
    exact htidy s (hperm.mem_iff.1 hs)
  · intro g hg
    exact isPlaced_of_annotated (annotated_of_load h g hg)

/-- A corpus with a directory of its own name is loaded, and its defect has its place in that directory. -/
theorem wellFormed_of_load_nested : load Nested.disk Nested.top = .ok Nested.corpus ∧ Nested.sample.Tidy ∧
    IsPlaced Nested.disk Nested.corpus.path Nested.defect ∧
      ∃ files samples, requireAnnotations Nested.disk Nested.corpus.path = .ok files ∧
        [Nested.sample].Perm samples ∧ List.Forall₂ (fun s file =>
          s.Holds (lineCount Nested.disk Nested.corpus.path) Nested.corpus.path file) samples files := by
  obtain ⟨-, -, htidy, hplaced, hholds⟩ := wellFormed_of_load Nested.load_corpus
  exact ⟨Nested.load_corpus, htidy _ (List.mem_singleton_self _), hplaced _ (List.mem_singleton_self _), hholds⟩

end Corpus

end Assay
