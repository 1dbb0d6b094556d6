import Assay.Corpus.Load
import Assay.Proofs.Faultless

/-!
# What a loaded corpus holds

A corpus is loaded only if nothing is wrong with it, so every defect of it has passed every check of
its annotation: a canonical category, a file below the corpus, a range of lines of that file.
-/

namespace Assay

/-- A defect that has passed the checks of its annotation; `count` gives the number of lines of a file
of the corpus. -/
structure Defect.Annotated (count : String → Except Fault (Option Nat)) (g : Defect) : Prop where
  id : g.id ≠ ""
  category : g.category.isCanonical = true
  file : ∃ text, g.file = Annotation.fileOf (Text.strip text)
  safe : Path.isSafeRelative g.file = true
  first : 1 ≤ g.location.lineStart
  ordered : g.location.lineStart ≤ g.location.lineEnd
  fits : ∃ n : Nat, count g.file = .ok (some n) ∧ g.location.lineEnd ≤ n
  column : ∀ k, g.location.column = some k → 1 ≤ k

namespace Annotation

variable {count : String → Except Fault (Option Nat)}

/-- A text of an annotation is trimmed. -/
theorem strip_of_textOf {v : Value} {s : String} (h : textOf v = .ok s) : ∃ t, s = Text.strip t := by
  obtain ⟨t, -, rfl⟩ := map_eq_ok.1 (mapError_eq_ok.1 h)
  exact ⟨t, rfl⟩

/-- A category of an annotation is canonical. -/
theorem isCanonical_of_read {v : Value} {c : Category}
    (h : Category.read? false v = .ok (some c)) : c.isCanonical = true := by
  have htext : ∀ {s : String}, Category.ofText? false s = some c → c.isCanonical = true := by
    intro s hs
    simpa using (Option.filter_eq_some_iff.1 hs).2
  unfold Category.read? at h
  split at h
  · cases h
  · cases h
  · obtain ⟨s, -, hs⟩ := bind_eq_ok.1 h
    exact htext (Except.ok.inj hs)

theorem expecting_eq_nil {holds : Bool} {problem : String} : expecting holds problem = [] ↔ holds = true := by
  cases holds <;> simp [expecting]

theorem eq_nil_of_expectingOf {holds : Bool} {v : Value} {problem : String → String} {ps : List String}
    (h : expectingOf holds v problem = .ok ps) : ps = [] ↔ holds = true := by
  cases holds with
  | true =>
    cases h
    exact ⟨fun _ => rfl, fun _ => rfl⟩
  | false =>
    obtain ⟨s, -, rfl⟩ := map_eq_ok.1 h
    simp

/-- A range without problems lies in a file of the corpus. -/
theorem range_of_rangeProblems {place file : String} {first last : Option Int}
    (h : rangeProblems count place file first last = .ok [])
    (safe : Path.isSafeRelative file = true) :
    ∃ a b, first = some a ∧ last = some b ∧ 1 ≤ a ∧ a ≤ b ∧
      ∃ n : Nat, count file = .ok (some n) ∧ b ≤ n := by
  unfold rangeProblems at h
  split at h
  next a b =>
    simp only [safe, Bool.not_true, Bool.false_eq_true, if_false] at h
    split at h
    · obtain ⟨_, -, h⟩ := bind_eq_ok.1 h
      cases h
    next hfirst =>
      split at h
      · obtain ⟨_, -, h⟩ := bind_eq_ok.1 h
        obtain ⟨_, -, h⟩ := bind_eq_ok.1 h
        cases h
      next hordered =>
        obtain ⟨found, hcount, h⟩ := bind_eq_ok.1 h
        cases found with
        | none => cases h
        | some n =>
          simp only at h
          split at h
          · obtain ⟨_, -, h⟩ := bind_eq_ok.1 h
            obtain ⟨_, -, h⟩ := bind_eq_ok.1 h
            cases h
          next hfits => exact ⟨a, b, rfl, rfl, by omega, by omega, n, hcount, by omega⟩
  next => cases h

/-- An entry without problems has a category, a severity, a range of a file below the corpus and no wrong column. -/
theorem parts_of_no_problems {v w : Value} {category : Option Category} {severity : Option Severity} {column : Option Int}
    {place file outside wrong : String} {first last : Option Int} {isNull : Bool} {cps sps ranges rps : List String}
    {categoryProblem severityProblem : String → String}
    (hcps : expectingOf category.isSome v categoryProblem = .ok cps)
    (hsps : expectingOf severity.isSome w severityProblem = .ok sps)
    (hranges : rangeProblems count place file first last = .ok ranges)
    (h : cps ++ sps ++ expecting (Path.isSafeRelative file) outside ++ ranges ++
      expecting (isNull || column.any (1 ≤ ·)) wrong ++ rps = []) :
    (∃ c, category = some c) ∧ (∃ s, severity = some s) ∧ Path.isSafeRelative file = true ∧
      (∃ a b, first = some a ∧ last = some b ∧ 1 ≤ a ∧ a ≤ b ∧ ∃ n : Nat, count file = .ok (some n) ∧ b ≤ n) ∧
      (isNull = true ∨ ∃ k, column = some k ∧ 1 ≤ k) ∧ rps = [] := by
  simp only [List.append_eq_nil_iff, eq_nil_of_expectingOf hcps, eq_nil_of_expectingOf hsps, expecting_eq_nil,
    Bool.or_eq_true] at h
  obtain ⟨⟨⟨⟨⟨hc, hs⟩, hsafe⟩, rfl⟩, hcolumn⟩, hrps⟩ := h
  refine ⟨Option.isSome_iff_exists.1 hc, Option.isSome_iff_exists.1 hs, hsafe, range_of_rangeProblems hranges hsafe,
    hcolumn.imp_right fun hpos => ?_, hrps⟩
  obtain ⟨k, hk, hpos⟩ := (Option.any_eq_true ..).1 hpos
  exact ⟨k, hk, of_decide_eq_true hpos⟩

/-- A column without problems is a positive number, where there is one. -/
theorem pos_of_column {v : Value} {column : Option Int} (hcolumn : v.lenientInt = .ok column)
    (h : v.isNull = true ∨ ∃ k, column = some k ∧ 1 ≤ k) : ∀ k, column = some k → 1 ≤ k := by
  rintro k rfl
  rcases h with hnull | ⟨n, hn, hpos⟩
  · cases v with
    | null => cases hcolumn
    | _ => cases hnull
  · cases hn
    exact hpos

/-- An entry is read as a defect that has passed every check, or leaves a problem behind. -/
theorem defectOf_cases {sampleId place : String} {raw : Value} {r : Except (List String) Defect}
    (h : defectOf count sampleId place raw = .ok r) :
    (∃ g, r = .ok g ∧ g.Annotated count) ∨ ∃ ps, r = .error ps ∧ ps ≠ [] := by
  unfold defectOf at h
  split at h
  · cases h
    exact .inr ⟨_, rfl, List.cons_ne_nil _ _⟩
  obtain ⟨id, -, h⟩ := bind_eq_ok.1 h
  split at h
  · cases h
    exact .inr ⟨_, rfl, List.cons_ne_nil _ _⟩
  next hne =>
  obtain ⟨category, hcategory, h⟩ := bind_eq_ok.1 h
  obtain ⟨categoryProblems, hcps, h⟩ := bind_eq_ok.1 h
  obtain ⟨severity, -, h⟩ := bind_eq_ok.1 h
  obtain ⟨severityProblems, hsps, h⟩ := bind_eq_ok.1 h
  obtain ⟨text, htext, h⟩ := bind_eq_ok.1 h
  obtain ⟨first, -, h⟩ := bind_eq_ok.1 h
  extract_lets lastRaw go at h
  obtain ⟨last, h⟩ : ∃ last, go last = .ok r := by
    split at h
    · exact ⟨_, h⟩
    · obtain ⟨last, -, h⟩ := bind_eq_ok.1 h
      exact ⟨last, h⟩
  obtain ⟨ranges, hranges, h⟩ := bind_eq_ok.1 h
  obtain ⟨column, hcolumn, h⟩ := bind_eq_ok.1 h
  obtain ⟨⟨rules, ruleProblems⟩, -, h⟩ := bind_eq_ok.1 h
  dsimp -zeta only at h
  extract_lets problems at h
  have parts (hnil : problems = []) := parts_of_no_problems hcps hsps hranges hnil
  split at h
  next category severity lineStart lineEnd =>
    split at h
    next hsome =>
      cases h
      exact .inr ⟨_, rfl, by simpa using hsome⟩
    next hnone =>
    obtain ⟨note, -, h⟩ := bind_eq_ok.1 h
    cases h
    obtain ⟨-, -, safe, ⟨a, b, ha, hb, hfirst, hordered, hfits⟩, hpositive, -⟩ := parts (by simpa using hnone)
    cases ha
    cases hb
    refine .inl ⟨_, rfl, hne, isCanonical_of_read (mapError_eq_ok.1 hcategory), ?_, safe, hfirst, hordered, hfits,
      pos_of_column hcolumn hpositive⟩
    obtain ⟨t, rfl⟩ := strip_of_textOf htext
    exact ⟨t, rfl⟩
  next hmissing =>
    -- One of the four parts is missing, and what is missing is a problem.
    cases h
    refine .inr ⟨_, rfl, fun hnil => ?_⟩
    obtain ⟨⟨c, hc⟩, ⟨s, hs⟩, -, ⟨a, b, ha, hb, -⟩, -⟩ := parts hnil
    exact hmissing c s a b hc hs ha hb

/-- Every defect that is read has passed every check. -/
theorem annotated_of_defectsOf {sampleId path : String} {index : Nat} {raws : List Value}
    {ds : List Defect} {problems : List String}
    (h : defectsOf count sampleId path index raws = .ok (ds, problems)) :
    ∀ g ∈ ds, g.Annotated count := by
  induction raws generalizing index ds problems with
  | nil =>
    cases h
    simp
  | cons raw rest ih =>
    obtain ⟨r, hr, h⟩ := bind_eq_ok.1 h
    obtain ⟨⟨more, ps⟩, hmore, h⟩ := bind_eq_ok.1 h
    obtain ⟨g, rfl, hg⟩ | ⟨_, rfl, -⟩ := defectOf_cases hr
    · cases h
      exact List.forall_mem_cons.2 ⟨hg, ih hmore⟩
    · cases h
      exact ih hmore

/-- A sample is made of the defects of its annotation in order, and their problems are reported. -/
theorem sampleOf_eq_ok {path : String} {header : Header} {s : Sample} {problems : List String} :
    sampleOf count path header = .ok (s, problems) ↔ ∃ ds own,
      defectsOf count header.sampleId path 0 header.defects = .ok (ds, own) ∧
      s = ⟨header.sampleId, sampleLanguage header.language ds, ds.mergeSort fun a b => !b.before a, path⟩ ∧
      problems = own ++ idProblems header.sampleId ds ++ spotProblems header.sampleId ds := by
  constructor
  · intro h
    obtain ⟨⟨ds, own⟩, hds, h⟩ := bind_eq_ok.1 h
    obtain ⟨hs, hproblems⟩ := Prod.mk.inj (Except.ok.inj h)
    exact ⟨ds, own, hds, hs.symm, hproblems.symm⟩
  · rintro ⟨ds, own, hds, rfl, rfl⟩
    exact bind_eq_ok.2 ⟨(ds, own), hds, rfl⟩

theorem annotated_of_sampleOf {path : String} {header : Header} {s : Sample} {problems : List String}
    (h : sampleOf count path header = .ok (s, problems)) : ∀ g ∈ s.defects, g.Annotated count := by
  obtain ⟨ds, own, hds, rfl, -⟩ := sampleOf_eq_ok.1 h
  intro g hg
  exact annotated_of_defectsOf hds g (List.mem_mergeSort.1 hg)

end Annotation

namespace Corpus

variable {count : String → Except Fault (Option Nat)}

/-- Looking for a name finds nothing exactly if no sample has it. -/
theorem find?_eq_none_iff {known : List Sample} {id : String} :
    known.find? (·.id == id) = none ↔ id ∉ known.map Sample.id := by
  simp [List.find?_eq_none]

/-- What one more file comes to: a problem and no sample, or a sample of a new name with all its problems. -/
theorem readSamples_cons_cases {root : Path} {known samples : List Sample} {file : String × List UInt8}
    {rest : List (String × List UInt8)} {problems : List String}
    (h : readSamples count root known (file :: rest) = .ok (samples, problems)) :
    (∃ problem ps, readSamples count root known rest = .ok (samples, ps) ∧ problems = problem :: ps) ∨
    ∃ doc header s own ps, documentOf root file = .ok (.ok doc) ∧
      Annotation.headerOf file.1 doc = .ok (.ok header) ∧ header.sampleId ∉ known.map Sample.id ∧
      Annotation.sampleOf count file.1 header = .ok (s, own) ∧
      readSamples count root (known ++ [s]) rest = .ok (samples, ps) ∧ problems = own ++ ps := by
  have passed {problem : String}
      (h : (readSamples count root known rest >>= fun r => .ok (r.1, problem :: r.2)) = .ok (samples, problems)) :
      ∃ problem ps, readSamples count root known rest = .ok (samples, ps) ∧ problems = problem :: ps := by
    obtain ⟨⟨more, ps⟩, hmore, h⟩ := bind_eq_ok.1 h
    cases h
    exact ⟨problem, ps, hmore, rfl⟩
  obtain ⟨doc, hdoc, h⟩ := bind_eq_ok.1 h
  cases doc with
  | error _ => exact .inl (passed h)
  | ok doc =>
    obtain ⟨header, hheader, h⟩ := bind_eq_ok.1 h
    cases header with
    | error _ => exact .inl (passed h)
    | ok header =>
      simp only at h
      split at h
      · exact .inl (passed h)
      next hnew =>
        obtain ⟨⟨s, own⟩, hs, h⟩ := bind_eq_ok.1 h
        obtain ⟨⟨more, ps⟩, hmore, h⟩ := bind_eq_ok.1 h
        cases h
        exact .inr ⟨doc, header, s, own, ps, hdoc, hheader, find?_eq_none_iff.1 hnew, hs, hmore, rfl⟩

/-- A sample that is read was known, or is that of a document, the problems of which are reported. -/
theorem origin_of_readSamples {root : Path} {known samples : List Sample} {files : List (String × List UInt8)}
    {problems : List String} (h : readSamples count root known files = .ok (samples, problems)) :
    ∀ s ∈ samples, s ∈ known ∨ ∃ path header own,
      Annotation.sampleOf count path header = .ok (s, own) ∧ own ⊆ problems := by
  induction files generalizing known problems with
  | nil =>
    cases h
    exact fun s hs => .inl hs
  | cons file rest ih =>
    intro s hs
    obtain ⟨problem, ps, hmore, rfl⟩ | ⟨-, header, sample, own, ps, -, -, -, hsample, hmore, rfl⟩ :=
      readSamples_cons_cases h
    · refine (ih hmore s hs).imp_right ?_
      rintro ⟨path, header, own, hown, hsub⟩
      exact ⟨path, header, own, hown, List.subset_cons_of_subset _ hsub⟩
    · obtain hs | ⟨path, header, others, hothers, hsub⟩ := ih hmore s hs
      · refine (List.mem_append.1 hs).imp_right fun hs => ?_
        cases List.mem_singleton.1 hs
        exact ⟨_, _, own, hsample, List.subset_append_left _ _⟩
      · exact .inr ⟨path, header, others, hothers, List.subset_append_of_subset_right _ hsub⟩

theorem ofNames_of_resolve? {p root : Path} {cwd : List String} (h : p.resolve? cwd = .ok root) :
    Path.ofNames root.names = root := by
  unfold Path.resolve? at h
  split at h
  · cases h
  · cases h
    rfl

/-- The parts of loading: the annotation files of the corpus were read without a problem, and their samples
were sorted. -/
theorem load_eq_ok {d : Disk} {p : Path} {c : Corpus} (h : load d p = .ok c) :
    ∃ files samples, requireAnnotations d c.path = .ok files ∧
      readSamples (lineCount d c.path) c.path [] files = .ok (samples, []) ∧ c.samples = sortSamples samples := by
  obtain ⟨root, hroot, h⟩ := bind_eq_ok.1 h
  obtain ⟨files, hfiles, h⟩ := bind_eq_ok.1 h
  obtain ⟨⟨samples, problems⟩, hsamples, h⟩ := bind_eq_ok.1 h
  simp only at h
  split at h
  · cases h
  next hnone =>
    obtain ⟨version, -, h⟩ := bind_eq_ok.1 h
    cases h
    have hnil : problems = [] := by simpa using hnone
    rw [hnil] at hsamples
    rw [path, ofNames_of_resolve? hroot]
    exact ⟨files, samples, hfiles, hsamples, rfl⟩

/-- A sample of a loaded corpus is that of a document without problems. -/
theorem sampleOf_of_load {d : Disk} {p : Path} {c : Corpus} (h : load d p = .ok c) :
    ∀ s ∈ c.samples, ∃ path header, Annotation.sampleOf (lineCount d c.path) path header = .ok (s, []) := by
  obtain ⟨files, samples, -, hsamples, hsorted⟩ := load_eq_ok h
  intro s hs
  rw [hsorted] at hs
  obtain hnone | ⟨path, header, own, hown, hsub⟩ := origin_of_readSamples hsamples s (List.mem_mergeSort.1 hs)
  · exact absurd hnone List.not_mem_nil
  · rw [List.subset_nil.1 hsub] at hown
    exact ⟨path, header, hown⟩

/-- Every defect of a loaded corpus has passed every check of its annotation. -/
theorem annotated_of_load {d : Disk} {p : Path} {c : Corpus} (h : load d p = .ok c) :
    ∀ g ∈ c.listed, g.Annotated (lineCount d c.path) := by
  intro g hg
  obtain ⟨s, hs, hg⟩ := List.mem_flatMap.1 hg
  obtain ⟨path, header, hsample⟩ := sampleOf_of_load h s hs
  exact Annotation.annotated_of_sampleOf hsample g hg

/-! ## Corpora of one annotation file -/

theorem documentOf_of_json {root : Path} {name text : String} {bytes : List UInt8} {v : Value}
    (htext : Disk.textOf bytes = .ok text)
    (hsuffix : (root.append (Path.ofText name)).suffix.map Char.toLower = ".json")
    (hread : Json.read text = .ok v) : documentOf root (name, bytes) = .ok (.ok v) := by
  have hdoc : (Disk.textOf bytes >>= Document.ofText (root.append (Path.ofText name))) = .ok v := by
    rw [htext]
    change Document.ofText _ text = _
    rw [Document.ofText, if_pos hsuffix, Document.readJson, hread]
  rw [documentOf]
  simp only [hdoc]

theorem requireAnnotations_of_find {d : Disk} {root : Path} {es : Directory} {file : String × List UInt8}
    (hfind : d.find? root = .ok (some (.dir es))) (hfiles : annotationFiles root.names (.dir es) = [file]) :
    requireAnnotations d root = .ok [file] := by
  simp only [requireAnnotations, hfind, bind, Except.bind, hfiles]
  rfl

/-- A corpus whose only annotation file has no problem is loaded. -/
theorem load_of_file {d : Disk} {p root : Path} {file : String × List UInt8} {doc : Value}
    {header : Annotation.Header} {s : Sample} {version : String} (hroot : p.resolve? d.cwd = .ok root)
    (hfiles : requireAnnotations d root = .ok [file]) (hdoc : documentOf root file = .ok (.ok doc))
    (hheader : Annotation.headerOf file.1 doc = .ok (.ok header))
    (hsample : Annotation.sampleOf (lineCount d root) file.1 header = .ok (s, []))
    (hversion : versionOf d root [file] = .ok version) : load d p = .ok ⟨root.names, version, [s]⟩ := by
  have hsamples : readSamples (lineCount d root) root [] [file] = .ok ([s], []) := by
    unfold readSamples
    simp only [hdoc, hheader, hsample, bind, Except.bind]
    rfl
  unfold load
  simp only [hroot, hfiles, hsamples, hversion, bind, Except.bind]
  simp [sortSamples, pure, Except.pure]

end Corpus

end Assay
