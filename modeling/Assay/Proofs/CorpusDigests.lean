import Assay.Corpus.Load
import Assay.Proofs.DiskPlaces
import Assay.Proofs.FileText
import Assay.Proofs.InputOrder
import Assay.Proofs.JsonTokens

/-!
# What a digest tells of a corpus

The bytes from which a version is made are the paths and contents of the annotation files, each ended by a zero byte.
If no path and no content has a zero byte of its own, then the first one ends the first path and the second one the
first content, so the files can be found again (`Corpus.eq_of_signature`). As the files are sorted by their paths, it
does not matter in which order a disk lists them (`Corpus.annotationFiles_congr`).
-/

namespace Assay

/-! ## Bytes of paths -/

namespace Text

theorem unit_of_char (c : Char) : (surrogate? c).getD c.toNat = c.toNat ∨ 0xD800 ≤ (surrogate? c).getD c.toNat := by
  unfold surrogate?
  split
  · exact .inr (Nat.le_add_left ..)
  · exact .inl rfl

/-- A code point is that of a character, or half of a surrogate pair. -/
theorem mem_of_mem_units {u : ℕ} {cs : List Char} (h : u ∈ units cs) : (∃ c ∈ cs, c.toNat = u) ∨ 0xD800 ≤ u := by
  fun_induction units cs with
  | case1 => cases h
  | case2 c =>
    rw [List.mem_singleton.1 h]
    exact (unit_of_char c).imp_left fun hown => ⟨c, List.mem_cons_self, hown.symm⟩
  | case3 d rest ih =>
    rcases List.mem_cons.1 h with rfl | h
    · exact .inl ⟨d, List.mem_cons_of_mem _ List.mem_cons_self, rfl⟩
    · rcases ih h with hchar | hlarge
      · exact .inl (List.exists_mem_cons_of_exists (List.exists_mem_cons_of_exists hchar))
      · exact .inr hlarge
  | case4 c d rest _ ih =>
    rcases List.mem_cons.1 h with rfl | h
    · exact (unit_of_char c).imp_left fun hown => ⟨c, List.mem_cons_self, hown.symm⟩
    · exact (ih h).imp_left List.exists_mem_cons_of_exists

end Text

namespace Utf8

section
variable {s t : String} {bytes : List UInt8} {u : ℕ}

theorem encode?_inj (hs : Text.isHeld s = true) (ht : Text.isHeld t = true) (hbytes : encode? s = .ok bytes)
    (hbytes' : encode? t = .ok bytes) : s = t :=
  Except.ok.inj ((decode_of_encode? (beq_iff_eq.1 hs) hbytes).symm.trans (decode_of_encode? (beq_iff_eq.1 ht) hbytes'))

theorem ofNat_ne_zero {n : ℕ} (hpos : 0 < n) (h : n < 256) : (0 : UInt8) ≠ UInt8.ofNat n := by
  intro heq
  have hzero := congrArg UInt8.toNat heq
  rw [toNat_ofNat h] at hzero
  exact hpos.ne hzero

/-- Only the first code point has a zero byte. -/
theorem zero_notMem_encodeUnit (hu : u < 0x110000) (hne : u ≠ 0) : (0 : UInt8) ∉ encodeUnit u := by
  have htail : ∀ shift, (0 : UInt8) ≠ UInt8.ofNat (0x80 + u / shift % 64) := fun shift =>
    ofNat_ne_zero (by omega) (by omega)
  unfold encodeUnit
  simp only
  split
  · simp only [List.mem_cons, List.not_mem_nil, or_false]
    exact ofNat_ne_zero (by omega) (by omega)
  split
  · simp only [List.mem_cons, List.not_mem_nil, or_false, not_or]
    exact ⟨ofNat_ne_zero (by omega) (by omega), htail 1⟩
  split
  · simp only [List.mem_cons, List.not_mem_nil, or_false, not_or]
    exact ⟨ofNat_ne_zero (by omega) (by omega), htail 64, htail 1⟩
  · simp only [List.mem_cons, List.not_mem_nil, or_false, not_or]
    exact ⟨ofNat_ne_zero (by omega) (by omega), htail 4096, htail 64, htail 1⟩

/-- The bytes of a text without the zero have no zero byte. -/
theorem zero_notMem_of_encode? (hs : '\x00' ∉ s.toList) (h : encode? s = .ok bytes) : (0 : UInt8) ∉ bytes := by
  rw [eq_encode_of_encode? h, encode, List.mem_flatMap]
  rintro ⟨u, hu, hzero⟩
  refine zero_notMem_encodeUnit (Text.lt_of_mem_units hu) ?_ hzero
  rintro rfl
  rcases Text.mem_of_mem_units hu with ⟨c, hc, hcode⟩ | hlarge
  · have hnull : '\x00' = c := Char.toNat_inj.1 (Eq.trans rfl hcode.symm)
    exact hs (hnull ▸ hc)
  · exact absurd hlarge (by decide)

end

end Utf8

/-! ## Trees of files -/

/-- A name that a file can have. -/
structure Path.IsName (name : String) : Prop where
  filled : name ≠ ""
  plain : '/' ∉ name.toList

namespace Path

section
variable {p q : List String}

/-- Names are the pieces of their path. -/
theorem splitOn_joined (hp : ∀ name ∈ p, IsName name) (hne : p ≠ []) :
    (joined p).toList.splitOn '/' = p.map String.toList := by
  have hslash : ("/" : String).toList = ['/'] := rfl
  rw [joined, String.toList_intercalate, hslash]
  refine List.splitOn_intercalate '/' ?_ (by simpa using hne)
  intro cs hcs
  obtain ⟨name, hname, rfl⟩ := List.mem_map.1 hcs
  exact (hp name hname).plain

theorem eq_nil_of_joined (hp : ∀ name ∈ p, IsName name) (h : joined p = "") : p = [] := by
  by_contra hne
  have hpieces := splitOn_joined hp hne
  rw [h] at hpieces
  obtain ⟨name, rest, rfl⟩ := List.exists_cons_of_ne_nil hne
  have hname : "".toList = name.toList := (List.cons.inj hpieces).1
  exact (hp name List.mem_cons_self).filled (String.toList_inj.1 hname).symm

/-- Names can be told from their path. -/
theorem joined_inj (hp : ∀ name ∈ p, IsName name) (hq : ∀ name ∈ q, IsName name) (h : joined p = joined q) :
    p = q := by
  by_cases hp' : p = []
  · subst hp'
    exact (eq_nil_of_joined hq h.symm).symm
  by_cases hq' : q = []
  · subst hq'
    exact eq_nil_of_joined hp h
  have hmaps : p.map String.toList = q.map String.toList := by rw [← splitOn_joined hp hp', h, splitOn_joined hq hq']
  exact List.map_injective_iff.2 (fun _ _ => String.toList_inj.1) hmaps

end

end Path

namespace Node

/-- A tree as a disk has it: every directory has each of its names once. -/
inductive WellNamed : Node → Prop
  | file (bytes : List UInt8) : WellNamed (.file bytes)
  | dir {es : Directory} : (es.map (·.1)).Nodup → (∀ e ∈ es, Path.IsName e.1) → (∀ e ∈ es, WellNamed e.2) →
      WellNamed (.dir es)

section
variable {n : Node} {es : Directory} {p : List String} {bytes : List UInt8}

theorem get?_of_mem {e : String × Node} (hd : (es.map (·.1)).Nodup) (he : e ∈ es) : Directory.get? es e.1 = some e.2 := by
  induction es with
  | nil => cases he
  | cons first rest ih =>
    rw [List.map_cons, List.nodup_cons] at hd
    rcases List.mem_cons.1 he with rfl | he
    · exact List.lookup_cons_self
    · have hne : e.1 ≠ first.1 := fun heq => hd.1 (heq ▸ List.mem_map_of_mem he)
      rw [Directory.get?, List.lookup_cons, beq_false_of_ne hne]
      exact ih hd.2 he

theorem mem_filesIn : (p, bytes) ∈ filesIn es ↔ ∃ e ∈ es, ∃ q, p = e.1 :: q ∧ (q, bytes) ∈ e.2.files := by
  induction es with
  | nil => simp [filesIn]
  | cons first rest ih =>
    obtain ⟨name, m⟩ := first
    rw [filesIn, List.mem_append, ih]
    simp only [List.mem_cons, or_and_right, exists_or, exists_eq_left]
    refine or_congr_left ?_
    rw [List.mem_map]
    constructor
    · rintro ⟨⟨q, b⟩, hq, heq⟩
      cases heq
      exact ⟨q, rfl, hq⟩
    · rintro ⟨q, rfl, hq⟩
      exact ⟨(q, bytes), hq, rfl⟩

/-- The files of a tree are what paths lead to. -/
theorem mem_files_iff (h : n.WellNamed) : (p, bytes) ∈ n.files ↔ n.get? p = some (.file bytes) := by
  induction h generalizing p with
  | file own =>
    cases p with
    | nil => simp [files, get?, eq_comm]
    | cons name rest => simp [files, get?]
  | @dir es hd _ _ ih =>
    rw [files, mem_filesIn]
    cases p with
    | nil => simp [get?]
    | cons name rest =>
      rw [get?, Option.bind_eq_some_iff]
      constructor
      · rintro ⟨e, he, q, heq, hq⟩
        obtain ⟨rfl, rfl⟩ := List.cons.inj heq
        exact ⟨e.2, get?_of_mem hd he, (ih e he).1 hq⟩
      · rintro ⟨m, hm, hrest⟩
        have he := Directory.mem_of_get? hm
        exact ⟨_, he, rest, rfl, (ih _ he).2 hrest⟩

theorem isName_of_mem_files (h : n.WellNamed) (hp : (p, bytes) ∈ n.files) : ∀ name ∈ p, Path.IsName name := by
  induction h generalizing p with
  | file own =>
    rw [files, List.mem_singleton] at hp
    cases hp
    simp
  | dir _ hnames _ ih =>
    rw [files, mem_filesIn] at hp
    obtain ⟨e, he, q, rfl, hq⟩ := hp
    exact List.forall_mem_cons.2 ⟨hnames e he, ih e he hq⟩

/-- The files below one name have other paths than those below the other names. -/
theorem nodup_filesIn (hd : (es.map (·.1)).Nodup) (hfiles : ∀ e ∈ es, e.2.files.Nodup) : (filesIn es).Nodup := by
  induction es with
  | nil => exact List.nodup_nil
  | cons first rest ih =>
    obtain ⟨name, m⟩ := first
    obtain ⟨hfirst, hothers⟩ := List.forall_mem_cons.1 hfiles
    rw [List.map_cons, List.nodup_cons] at hd
    have hown : ((files m).map fun f => (name :: f.1, f.2)).Nodup := hfirst.map fun a b hab => by
      obtain ⟨hnames, hbytes⟩ := Prod.mk.inj hab
      exact Prod.ext (List.cons.inj hnames).2 hbytes
    rw [filesIn]
    refine hown.append (ih hd.2 hothers) ?_
    rintro ⟨p, bytes⟩ hp hp'
    obtain ⟨f, -, heq⟩ := List.mem_map.1 hp
    obtain ⟨e, he, q, rfl, -⟩ := mem_filesIn.1 hp'
    have hname : name = e.1 := (List.cons.inj (Prod.mk.inj heq).1).1
    exact hd.1 (List.mem_map.2 ⟨e, he, hname.symm⟩)

theorem nodup_files (h : n.WellNamed) : n.files.Nodup := by
  induction h with
  | file own => exact List.nodup_singleton _
  | dir hd _ _ ih => exact nodup_filesIn hd ih

end

end Node

/-! ## Digests -/

namespace Corpus

/-- An annotation file whose path and content have no zero, and whose path is held code point by code point. -/
structure IsEnded (file : String × List UInt8) : Prop where
  held : Text.isHeld file.1 = true
  path : '\x00' ∉ file.1.toList
  content : (0 : UInt8) ∉ file.2

section
variable {a b files rest : List (String × List UInt8)} {file : String × List UInt8} {x y bytes : List UInt8}
  {root : List String} {n m : Node}

theorem entryOf_eq_ok : entryOf file = .ok bytes ↔ ∃ path, Utf8.encode? file.1 = .ok path ∧
    bytes = path ++ 0 :: (file.2 ++ [0]) := by
  rw [entryOf, bind_eq_ok]
  refine exists_congr fun path => and_congr_right fun _ => ?_
  rw [pure_eq_ok, eq_comm]
  simp

theorem entryOf_fails_iff : (∃ e, entryOf file = .error e) ↔
    ∃ u ∈ Text.units file.1.toList, Text.isSurrogate u = true := by
  rw [← Utf8.encode?_faults_iff, entryOf]
  cases Utf8.encode? file.1 <;> simp [bind, Except.bind, pure, Except.pure]

/-- Files have no bytes only if one of them has a name that is no text. -/
theorem signature_returns_iff : (∃ x, signature files = .ok x) ↔
    ∀ file ∈ files, ∀ u ∈ Text.units file.1.toList, Text.isSurrogate u = false := by
  constructor
  · rintro ⟨x, hx⟩ file hmem u hu
    obtain ⟨entries, hentries, -⟩ := bind_eq_ok.1 hx
    obtain ⟨entry, -, hentry⟩ := returns_of_mapM_eq_ok hentries file hmem
    by_contra hsurrogate
    obtain ⟨e, he⟩ := entryOf_fails_iff.2 ⟨u, hu, Bool.not_eq_false _ ▸ hsurrogate⟩
    cases he.symm.trans hentry
  · intro hwhole
    obtain ⟨entries, hentries⟩ := exists_mapM (f := entryOf) (l := files) fun file hmem => by
      cases hfile : entryOf file with
      | ok entry => exact ⟨entry, rfl⟩
      | error e =>
        obtain ⟨u, hu, hsurrogate⟩ := entryOf_fails_iff.1 ⟨e, hfile⟩
        rw [hwhole file hmem u hu] at hsurrogate
        cases hsurrogate
    exact ⟨entries.flatten, by rw [signature, hentries]; rfl⟩

theorem signature_cons_eq_ok : signature (file :: rest) = .ok x ↔
    ∃ path others, Utf8.encode? file.1 = .ok path ∧ signature rest = .ok others ∧
      x = path ++ 0 :: (file.2 ++ 0 :: others) := by
  rw [signature, List.mapM_cons, signature]
  simp only [bind_eq_ok, pure_eq_ok, entryOf_eq_ok]
  constructor
  · rintro ⟨_, ⟨_, ⟨path, hpath, rfl⟩, entries, hentries, rfl⟩, rfl⟩
    exact ⟨path, entries.flatten, hpath, ⟨entries, hentries, rfl⟩, by simp⟩
  · rintro ⟨path, _, hpath, ⟨entries, hentries, rfl⟩, rfl⟩
    exact ⟨_, ⟨_, ⟨path, hpath, rfl⟩, entries, hentries, rfl⟩, by simp⟩

theorem signature_cons_ne_nil (hnil : signature [] = .ok x) : signature (file :: rest) ≠ .ok x := by
  intro hcons
  cases hnil
  obtain ⟨path, others, -, -, h⟩ := signature_cons_eq_ok.1 hcons
  simp at h

/-- What stands before the first zero byte is the same where all bytes are. -/
theorem eq_of_ended {before before' after after' : List UInt8} (h : (0 : UInt8) ∉ before) (h' : (0 : UInt8) ∉ before')
    (heq : before ++ 0 :: after = before' ++ 0 :: after') : before = before' ∧ after = after' := by
  induction before generalizing before' with
  | nil =>
    cases before' with
    | nil => exact ⟨rfl, (List.cons.inj heq).2⟩
    | cons b before' => exact absurd ((List.cons.inj heq).1 ▸ List.mem_cons_self) h'
  | cons b before ih =>
    cases before' with
    | nil => exact absurd ((List.cons.inj heq).1 ▸ List.mem_cons_self) h
    | cons b' before' =>
      obtain ⟨rfl, hrest⟩ := List.cons.inj heq
      obtain ⟨rfl, rfl⟩ := ih (fun hmem => h (List.mem_cons_of_mem _ hmem))
        (fun hmem => h' (List.mem_cons_of_mem _ hmem)) hrest
      exact ⟨rfl, rfl⟩

/-- The files are found again in their bytes, one after the other. -/
theorem eq_of_signature (ha : ∀ file ∈ a, IsEnded file) (hb : ∀ file ∈ b, IsEnded file) (hx : signature a = .ok x)
    (hy : signature b = .ok x) : a = b := by
  induction a generalizing b x with
  | nil =>
    cases b with
    | nil => rfl
    | cons file rest => exact absurd hy (signature_cons_ne_nil hx)
  | cons file rest ih =>
    cases b with
    | nil => exact absurd hx (signature_cons_ne_nil hy)
    | cons file' rest' =>
      obtain ⟨hfile, hrest⟩ := List.forall_mem_cons.1 ha
      obtain ⟨hfile', hrest'⟩ := List.forall_mem_cons.1 hb
      obtain ⟨path, others, hpath, hothers, rfl⟩ := signature_cons_eq_ok.1 hx
      obtain ⟨path', others', hpath', hothers', hbytes⟩ := signature_cons_eq_ok.1 hy
      obtain ⟨rfl, hbehind⟩ := eq_of_ended (Utf8.zero_notMem_of_encode? hfile.path hpath)
        (Utf8.zero_notMem_of_encode? hfile'.path hpath') hbytes
      obtain ⟨hcontent, rfl⟩ := eq_of_ended hfile.content hfile'.content hbehind
      have hname := Utf8.encode?_inj hfile.held hfile'.held hpath hpath'
      obtain rfl : rest = rest' := ih hrest hrest' hothers hothers'
      rw [Prod.ext hname hcontent]

/-! ## Order -/

theorem ranking_files : Ranking fun a b : String × List UInt8 => !Text.before b.1 a.1 :=
  .of_key (fun file => Text.rankKey file.1) fun _ _ => Text.not_before_iff

/-- The files of a tree are sorted by their paths, in whatever order the tree has them. -/
theorem annotationFiles_congr (hn : n.WellNamed) (hm : m.WellNamed)
    (h : ∀ p bytes, n.get? p = some (.file bytes) ↔ m.get? p = some (.file bytes)) :
    annotationFiles root n = annotationFiles root m := by
  have hperm : n.files.Perm m.files := by
    rw [List.perm_ext_iff_of_nodup (Node.nodup_files hn) (Node.nodup_files hm)]
    rintro ⟨p, bytes⟩
    rw [Node.mem_files_iff hn, Node.mem_files_iff hm, h]
  -- Different files have different paths, so no two of them have one rank.
  have hpaths : n.files.Pairwise fun f g => Path.joined f.1 ≠ Path.joined g.1 := by
    refine (Node.nodup_files hn).imp_of_mem ?_
    rintro ⟨p, bytes⟩ ⟨q, bytes'⟩ hp hq hne hjoined
    have hsame : p = q := Path.joined_inj (Node.isName_of_mem_files hn hp) (Node.isName_of_mem_files hn hq) hjoined
    rw [Node.mem_files_iff hn] at hp hq
    subst hsame
    cases hp.symm.trans hq
    exact hne rfl
  unfold annotationFiles
  refine ranking_files.mergeSort_eq_of_perm ((hperm.filter _).map _) (List.pairwise_map.2 ((hpaths.filter _).imp ?_))
  intro f g hne hle
  rw [Text.not_before_iff, Text.not_before_iff] at hle
  exact hne (Text.rankKey_inj.1 (le_antisymm hle.1 hle.2))

/-- **Digests.** The bytes from which the version of a corpus is made are there unless a file has a name that is no
text. They are equal for two lists of files exactly if the lists are equal, and the order in which a disk lists the
files does not matter. -/
theorem signature_identifies :
    (∀ a b, (∀ file ∈ a ++ b, IsEnded file) → ∀ x y, signature a = .ok x → signature b = .ok y → (x = y ↔ a = b)) ∧
    (∀ files, (∃ x, signature files = .ok x) ↔
      ∀ file ∈ files, ∀ u ∈ Text.units file.1.toList, Text.isSurrogate u = false) ∧
    ∀ root n m, Node.WellNamed n → Node.WellNamed m →
      (∀ p bytes, n.get? p = some (.file bytes) ↔ m.get? p = some (.file bytes)) →
        signature (annotationFiles root n) = signature (annotationFiles root m) := by
  refine ⟨fun a b hended x y hx hy => ?_, fun files => signature_returns_iff, fun root n m hn hm h => ?_⟩
  · obtain ⟨ha, hb⟩ := List.forall_mem_append.1 hended
    constructor
    · rintro rfl
      exact eq_of_signature ha hb hx hy
    · rintro rfl
      exact Except.ok.inj (hx.symm.trans hy)
  · rw [annotationFiles_congr hn hm h]

end

/-- Another order of two entries leads to the same files; the digests of one and of two files are made from different
bytes. -/
theorem signature_identifies_two :
    let one : String × Node := ("a.gt.json", .file [0x5B, 0x5D])
    let other : String × Node := ("b.gt.json", .file [])
    signature (annotationFiles [] (.dir [one, other])) = signature (annotationFiles [] (.dir [other, one])) ∧
    ∃ x y, signature [("a.gt.json", [0x5B, 0x5D])] = .ok x ∧
      signature [("a.gt.json", [0x5B, 0x5D]), ("b.gt.json", [])] = .ok y ∧ x ≠ y := by
  intro one other
  obtain ⟨hidentifies, hreturns, horder⟩ := signature_identifies
  have hended : ∀ file ∈ [("a.gt.json", [0x5B, 0x5D])] ++ [("a.gt.json", [0x5B, 0x5D]), ("b.gt.json", [])],
      IsEnded file := by
    have hfirst : IsEnded ("a.gt.json", [0x5B, 0x5D]) := ⟨by decide, by decide, by decide⟩
    have hsecond : IsEnded ("b.gt.json", []) := ⟨by decide, by decide, by decide⟩
    simp [hfirst, hsecond]
  obtain ⟨x, hx⟩ := (hreturns [("a.gt.json", [0x5B, 0x5D])]).2 (by decide)
  obtain ⟨y, hy⟩ := (hreturns [("a.gt.json", [0x5B, 0x5D]), ("b.gt.json", [])]).2 (by decide)
  have hone : Path.IsName one.1 := ⟨by decide, by decide⟩
  have hother : Path.IsName other.1 := ⟨by decide, by decide⟩
  have hnames : ∀ name, Directory.get? [one, other] name = Directory.get? [other, one] name := by
    intro name
    by_cases hname : name = "a.gt.json"
    · subst hname
      rfl
    · simp [Directory.get?, List.lookup_cons, beq_false_of_ne hname, one, other]
  refine ⟨horder [] _ _ (.dir (by decide) (by simp [hone, hother]) ?_) (.dir (by decide) (by simp [hone, hother]) ?_) ?_,
    x, y, hx, hy, ?_⟩
  · exact List.forall_mem_cons.2 ⟨.file _, List.forall_mem_singleton.2 (.file _)⟩
  · exact List.forall_mem_cons.2 ⟨.file _, List.forall_mem_singleton.2 (.file _)⟩
  · intro p bytes
    cases p with
    | nil => simp [Node.get?]
    | cons name rest => rw [Node.get?, Node.get?, hnames]
  · rw [Ne, hidentifies _ _ hended x y hx hy]
    decide

-- A zero in a content can end it early, so that one file looks like two.
example : signature [("a", [0, 0x62, 0])] = signature [("a", []), ("b", [])] := by rfl

end Corpus

end Assay
