import Assay.Proofs.CollapsedPaths

/-!
# Ways to name a file of a corpus

A tool names a file from the top of the disk, as a file address, relative to the corpus, or by a way on which the
directory of the corpus stands, and it may write slashes twice or as backslashes. All of these are one path in the
form that is compared (`CorpusPath.ofTool_of_leads`). A slash more or less does not hide where the corpus begins,
because a text without two slashes in a row stands in a path exactly where it stands once the slashes are single.
-/

namespace Assay

/-! ## Names of a path -/

namespace Path

theorem mem_of_mem_piecesFrom {q : List Char} {c : Char} : ∀ {cs piece : List Char}, q ∈ piecesFrom piece cs →
    c ∈ q → c ∈ piece ∨ c ∈ cs
  | [], piece, hq, hc => by
    cases List.mem_singleton.1 hq
    exact .inl (List.mem_reverse.1 hc)
  | e :: rest, piece, hq, hc => by
    by_cases he : e = '/'
    · subst he
      rcases List.mem_cons.1 hq with rfl | hq
      · exact .inl (List.mem_reverse.1 hc)
      · exact .inr (List.mem_cons_of_mem _ ((mem_of_mem_piecesFrom hq hc).resolve_left List.not_mem_nil))
    · rw [piecesFrom.eq_3 _ _ _ (fun h => he h)] at hq
      rcases mem_of_mem_piecesFrom hq hc with hc | hc
      · rcases List.mem_cons.1 hc with rfl | hc
        · exact .inr (List.mem_cons_self ..)
        · exact .inl hc
      · exact .inr (List.mem_cons_of_mem _ hc)

/-- The names of a path are written in its text, and none of them is empty or a dot. -/
theorem of_mem_names {s n : String} (h : n ∈ (ofText s).names) :
    n ≠ "" ∧ n ≠ "." ∧ ∀ c ∈ n.toList, c ∈ s.toList := by
  obtain ⟨hpiece, hkept⟩ := List.mem_filter.1 h
  obtain ⟨q, hq, rfl⟩ := List.mem_map.1 hpiece
  obtain ⟨hempty, hdot⟩ := of_decide_eq_true hkept
  refine ⟨hempty, hdot, fun c hc => ?_⟩
  rw [String.toList_ofList] at hc
  exact (mem_of_mem_piecesFrom hq hc).resolve_left List.not_mem_nil

end Path

namespace CorpusPath

/-! ## Single slashes -/

variable {l cs ds needle rest : List Char} {c : Char}

theorem squeeze_cons (h : c = '/' → cs.head? ≠ some '/') : squeeze (c :: cs) = c :: squeeze cs := by
  refine squeeze.eq_2 _ _ ?_
  rintro rest hc rfl
  exact h hc rfl

theorem single_of_cons (h : ¬ ['/', '/'] <:+: c :: cs) : ¬ ['/', '/'] <:+: cs :=
  fun hcs => h (hcs.trans (List.suffix_cons ..).isInfix)

theorem head_of_single (h : ¬ ['/', '/'] <:+: '/' :: cs) : cs.head? ≠ some '/' := by
  intro hhead
  obtain ⟨rest, rfl⟩ := List.head?_eq_some_iff.1 hhead
  exact h ⟨[], rest, rfl⟩

theorem squeeze_slash_cons (hs : squeeze ds = cs) (single : ¬ ['/', '/'] <:+: '/' :: cs) :
    squeeze ('/' :: ds) = '/' :: cs := by
  rw [squeeze_cons, hs]
  rw [← head?_squeeze, hs]
  exact fun _ => head_of_single single

/-- What a path starts with, if slashes are single in it, it still starts with. -/
theorem prefix_squeeze : ∀ {l cs : List Char}, ¬ ['/', '/'] <:+: l → l <+: cs → l <+: squeeze cs
  | [], cs, _, _ => List.nil_prefix
  | c :: l, cs, hl, h => by
    obtain ⟨more, rfl⟩ := h
    by_cases hc : c = '/' ∧ (l ++ more).head? = some '/'
    · obtain ⟨rfl, hhead⟩ := hc
      cases l with
      | nil =>
        rw [slash_prefix_iff, head?_squeeze]
        rfl
      | cons e l =>
        have he : e = '/' := Option.some.inj hhead
        exact absurd ⟨[], l, by rw [he]; rfl⟩ hl
    · rw [List.cons_append, squeeze_cons fun h1 h2 => hc ⟨h1, h2⟩, List.cons_prefix_cons]
      exact ⟨rfl, prefix_squeeze (single_of_cons hl) ⟨more, rfl⟩⟩

/-- What stands in a path, if slashes are single in it, still stands there. -/
theorem infix_squeeze (hl : ¬ ['/', '/'] <:+: l) (h : l <:+: cs) : l <:+: squeeze cs := by
  fun_induction squeeze cs with
  | case1 rest ih =>
    rcases List.infix_cons_iff.1 h with hstart | hlater
    · have hsqueeze := prefix_squeeze hl hstart
      rw [squeeze] at hsqueeze
      exact hsqueeze.isInfix
    · exact ih hlater
  | case2 c rest hne ih =>
    rcases List.infix_cons_iff.1 h with hstart | hlater
    · have hsqueeze := prefix_squeeze hl hstart
      rw [squeeze_cons fun hc hhead => ?_] at hsqueeze
      · exact hsqueeze.isInfix
      · obtain ⟨more, rfl⟩ := List.head?_eq_some_iff.1 hhead
        exact hne more hc rfl
    · exact (ih hlater).trans (List.suffix_cons ..).isInfix
  | case3 => exact h

/-! ## Slashes written in other ways -/

/-- Any slashes of a path written twice or as backslashes. -/
inductive Respelled : List Char → List Char → Prop
  | nil : Respelled [] []
  | same {c : Char} {cs ds : List Char} : Respelled cs ds → Respelled (c :: cs) (c :: ds)
  | doubled {cs ds : List Char} : Respelled cs ds → Respelled ('/' :: cs) ('/' :: '/' :: ds)
  | backslash {cs ds : List Char} : Respelled cs ds → Respelled ('/' :: cs) ('\\' :: ds)

namespace Respelled

theorem mem (h : Respelled cs ds) (hc : c ∈ ds) : c ∈ cs ∨ c = '/' ∨ c = '\\' := by
  induction h with
  | nil => exact absurd hc List.not_mem_nil
  | same _ ih =>
    rcases List.mem_cons.1 hc with rfl | hc
    · exact .inl (List.mem_cons_self ..)
    · exact (ih hc).imp_left (List.mem_cons_of_mem _)
  | doubled _ ih =>
    rcases List.mem_cons.1 hc with rfl | hc
    · exact .inr (.inl rfl)
    rcases List.mem_cons.1 hc with rfl | hc
    · exact .inr (.inl rfl)
    · exact (ih hc).imp_left (List.mem_cons_of_mem _)
  | backslash _ ih =>
    rcases List.mem_cons.1 hc with rfl | hc
    · exact .inr (.inr rfl)
    · exact (ih hc).imp_left (List.mem_cons_of_mem _)

theorem ne_nil (h : Respelled cs ds) (hne : cs ≠ []) : ds ≠ [] := by
  cases h with
  | nil => exact hne
  | _ => simp

/-- With single slashes again it is the path. -/
theorem squeeze (h : Respelled cs ds) (single : ¬ ['/', '/'] <:+: cs) (hback : '\\' ∉ cs) :
    CorpusPath.squeeze (withSlashes ds) = cs := by
  induction h with
  | nil => rfl
  | @same c cs ds h ih =>
    have hrest := ih (single_of_cons single) fun hmem => hback (List.mem_cons_of_mem _ hmem)
    have hc : c ≠ '\\' := fun hc => hback (hc ▸ List.mem_cons_self ..)
    have hslashes : withSlashes (c :: ds) = c :: withSlashes ds := by simp [withSlashes, hc]
    rw [hslashes]
    by_cases hslash : c = '/'
    · subst hslash
      exact squeeze_slash_cons hrest single
    · rw [squeeze_cons fun h => absurd h hslash, hrest]
  | @doubled cs ds h ih =>
    have hrest := ih (single_of_cons single) fun hmem => hback (List.mem_cons_of_mem _ hmem)
    change CorpusPath.squeeze ('/' :: '/' :: withSlashes ds) = _
    rw [CorpusPath.squeeze]
    exact squeeze_slash_cons hrest single
  | @backslash cs ds h ih =>
    exact squeeze_slash_cons (ih (single_of_cons single) fun hmem => hback (List.mem_cons_of_mem _ hmem)) single

theorem trimStart (h : Respelled cs ds) (start : Text.trimStart cs = cs) : Text.trimStart ds = ds := by
  cases h with
  | nil => exact start
  | same _ =>
    refine Text.trimStart_eq_self_iff.2 fun c hc => Text.trimStart_eq_self_iff.1 start c ?_
    exact hc
  | doubled _ => rfl
  | backslash _ => rfl

/-- What ends the one ends the other. -/
theorem getLast? (h : Respelled cs ds) (hc : ds.getLast? = some c) :
    cs.getLast? = some c ∨ c = '/' ∨ c = '\\' := by
  induction h with
  | nil => exact .inl hc
  | same h ih =>
    cases h with
    | nil => exact .inl hc
    | _ => exact ih hc
  | doubled h ih =>
    cases h with
    | nil => exact .inl hc
    | _ => exact ih hc
  | backslash h ih =>
    cases h with
    | nil => exact .inr (.inr (Option.some.inj hc).symm)
    | _ => exact ih hc

theorem trimEnd (h : Respelled cs ds) (ending : Text.trimEnd cs = cs) : Text.trimEnd ds = ds := by
  refine Text.trimEnd_eq_self_iff.2 fun c hc => ?_
  rcases h.getLast? hc with hlast | rfl | rfl
  · exact Text.trimEnd_eq_self_iff.1 ending c hlast
  · rfl
  · rfl

end Respelled

/-! ## The corpus and its files -/

/-- The top of a corpus called `name`, given as it is seen from the top of the disk. -/
structure PlainRoot (cwd : List String) (root name : String) : Prop where
  resolved : CorpusRoot.ofText cwd root = .ok ⟨root, root⟩
  named : (Path.ofText root).name = name
  absolute : root.toList.head? = some '/'
  ending : root.toList.getLast? ≠ some '/'
  single : ¬ ['/', '/'] <:+: root.toList
  backslash : '\\' ∉ root.toList
  colon : ':' ∉ root.toList
  blank : root.toList.any Text.isBlank = false

/-- The path of a file in a corpus called `name`: no name on it is empty, the first one is not a dot, and no
directory has the name of the corpus. -/
structure PlainFile (name r : String) : Prop where
  filled : ∀ q ∈ Path.pieces r.toList, q ≠ []
  start : (Path.pieces r.toList).head? ≠ some ['.']
  directories : name.toList ∉ (Path.pieces r.toList).dropLast
  backslash : '\\' ∉ r.toList
  colon : ':' ∉ r.toList
  trimmed : Text.trim r.toList = r.toList

/-- What a tool may write in front of a file `r` of a corpus: names `.`, the top of the corpus, also as a file
address, or a way to a directory with the name of the corpus. Such a way must not be that from the top through the
corpus itself, nor lead to its top. -/
inductive Leads (root name r : List Char) : List Char → Prop
  | here (n : ℕ) : Leads root name r (List.replicate n ['.', '/']).flatten
  | top : Leads root name r (root ++ ['/'])
  | address {scheme : List Char} (file : scheme.map Char.toLower = "file://".toList) :
      Leads root name r (scheme ++ (root ++ ['/']))
  | below : Leads root name r (name ++ ['/'])
  | above {q : List Char} (backslash : '\\' ∉ q) (colon : ':' ∉ q) (blank : q.any Text.isBlank = false)
      (outside : ¬ (root ++ ['/']) <+: q ++ ('/' :: name ++ ['/']) ++ r)
      (other : q ++ ('/' :: name ++ ['/']) ++ r ≠ root) : Leads root name r (q ++ ('/' :: name ++ ['/']))

section
variable {cwd : List String} {root name r : String}

namespace PlainRoot

theorem slash_cons (h : PlainRoot cwd root name) : ∃ rest, root.toList = '/' :: rest :=
  List.head?_eq_some_iff.1 h.absolute

/-- The path of the top has a name, because the top of the disk ends with a slash. -/
theorem names_ne_nil (h : PlainRoot cwd root name) : (Path.ofText root).names ≠ [] := by
  intro hnil
  obtain ⟨rest, hrest⟩ := h.slash_cons
  have habsolute : (Path.ofText root).isAbsolute = true := by
    simpa [Path.isAbsolute, Path.ofText, hrest] using Path.rootOf_slash_ne rest
  obtain ⟨p, hp, hroot⟩ := bind_eq_ok.1 h.resolved
  have hresolve : Path.ofNames [] = p := by
    simpa [Path.resolve?, hnil, habsolute, Path.faultFrom, Path.resolve, Path.collapse] using hp
  subst hresolve
  have htop : "/" = root := congrArg CorpusRoot.resolved (Except.ok.inj hroot)
  exact h.ending (by rw [← htop]; rfl)

theorem name_spec (h : PlainRoot cwd root name) :
    name ≠ "" ∧ name ≠ "." ∧ ∀ c ∈ name.toList, c ∈ root.toList := by
  obtain ⟨n, hn⟩ : ∃ n, (Path.ofText root).names.getLast? = some n :=
    ⟨_, List.getLast?_eq_some_getLast h.names_ne_nil⟩
  have hname : n = name := by rw [← h.named, Path.name, hn, Option.getD_some]
  exact hname ▸ Path.of_mem_names (List.mem_of_getLast? hn)

theorem name_ne_nil (h : PlainRoot cwd root name) : name.toList ≠ [] := fun hnil =>
  h.name_spec.1 (String.toList_inj.1 hnil)

theorem not_mem_name (h : PlainRoot cwd root name) : '/' ∉ name.toList := h.named ▸ Path.not_mem_name root

theorem bareRoot_eq (h : PlainRoot cwd root name) : bareRoot root = root.toList := by
  have hslashes : withSlashes root.toList = root.toList := withSlashes_eq_self h.backslash
  rw [bareRoot, hslashes]
  refine Text.dropEnd_eq_self_iff.2 fun c hc => beq_false_of_ne ?_
  rintro rfl
  exact h.ending hc

theorem rootName_eq (h : PlainRoot cwd root name) : rootName root = name := by
  rw [rootName, h.bareRoot_eq, String.ofList_toList, h.named]

end PlainRoot

namespace PlainFile

theorem single_slash_cons (h : PlainFile name r) : ¬ ['/', '/'] <:+: '/' :: r.toList := by
  intro hslashes
  have hempty := (infix_iff_mem_pieces (n := []) List.not_mem_nil).1 hslashes
  exact h.filled [] (List.mem_of_mem_dropLast hempty) rfl

theorem plain (h : PlainFile name r) : Plain r.toList := by
  have hhead := head_of_single h.single_slash_cons
  have htrim := Text.trim_eq_self_iff.1 h.trimmed
  exact {
    slashes := withSlashes_eq_self h.backslash
    dots := by
      refine dropDots.eq_2 _ fun rest hrest => h.start ?_
      rw [hrest]
      rfl
    relative := by
      refine Text.dropWhile_eq_self_iff.2 fun c hc => beq_false_of_ne ?_
      rintro rfl
      exact hhead hc
    single := single_of_cons h.single_slash_cons
    start := htrim.1
    ending := htrim.2 }

theorem ne_nil (h : PlainFile name r) : r.toList ≠ [] := by
  intro hnil
  have hfilled := h.filled [] (by rw [hnil]; exact List.mem_singleton_self _)
  exact hfilled rfl

end PlainFile

/-! ## What comes in front -/

/-- A blank is no letter. -/
theorem toLower_of_isBlank (h : Text.isBlank c = true) : c.toLower = c := by
  refine dif_neg fun hu => ?_
  have hA : 65 ≤ c.toNat := UInt32.le_iff_toNat_le.1 hu.1
  have hZ : c.toNat ≤ 90 := UInt32.le_iff_toNat_le.1 hu.2
  simp only [Text.isBlank, Bool.or_eq_true, Bool.and_eq_true, decide_eq_true_eq, beq_iff_eq] at h
  omega

/-- Nothing that leads to a file starts with a blank. -/
theorem Leads.start {lead : List Char} (h : Leads root.toList name.toList r.toList lead)
    (hroot : PlainRoot cwd root name) : ∀ c, lead.head? = some c → Text.isBlank c = false := by
  intro c hc
  cases h with
  | here n =>
    cases n with
    | zero => cases hc
    | succ n =>
      cases hc
      rfl
  | top =>
    obtain ⟨rest, hrest⟩ := hroot.slash_cons
    rw [hrest] at hc
    cases hc
    rfl
  | @address scheme hscheme =>
    cases scheme with
    | nil => cases hscheme
    | cons e scheme =>
      cases hc
      have hf : c.toLower = 'f' := (List.cons.inj hscheme).1
      by_contra hblank
      rw [toLower_of_isBlank (by simpa using hblank)] at hf
      subst hf
      exact hblank (by decide)
  | below =>
    obtain ⟨hne, -, hmem⟩ := hroot.name_spec
    cases hchars : name.toList with
    | nil => exact absurd (String.toList_inj.1 hchars) hne
    | cons e rest =>
      rw [hchars] at hc hmem
      cases hc
      simpa using List.any_eq_false.1 hroot.blank c (hmem c (List.mem_cons_self ..))
  | @above q _ _ hblank _ _ =>
    cases q with
    | nil =>
      cases hc
      rfl
    | cons e q =>
      cases hc
      simpa using List.any_eq_false.1 hblank c (List.mem_cons_self ..)

theorem colon_mem_of_file {scheme : List Char} (h : scheme.map Char.toLower = "file://".toList) : ':' ∈ scheme := by
  have hcolon : ':' ∈ scheme.map Char.toLower := by
    rw [h]
    decide
  obtain ⟨c, hc, hlower⟩ := List.mem_map.1 hcolon
  rwa [eq_of_toLower (by decide) hlower] at hc

/-- A path in which no colon stands has neither a scheme nor a drive. -/
theorem dropScheme_of_colon (h : ':' ∉ cs) : dropScheme cs = cs :=
  if_neg fun hscheme => h (List.mem_of_mem_take (colon_mem_of_file hscheme))

theorem dropDrive_of_colon (h : ':' ∉ cs) : dropDrive cs = cs := by
  refine dropDrive_eq_self fun hdrive => h ?_
  exact (tail_suffix cs).subset (List.mem_of_head? hdrive)

theorem dropScheme_append {scheme : List Char} (h : scheme.map Char.toLower = "file://".toList) (cs : List Char) :
    dropScheme (scheme ++ cs) = cs := by
  have hlength : scheme.length = 7 := by simpa using congrArg List.length h
  rw [dropScheme, List.take_left' hlength, if_pos h, List.drop_left' hlength]

/-- Without the scheme of a file address, what leads to a file has neither a colon nor a backslash. -/
theorem Leads.without_scheme {lead : List Char} (h : Leads root.toList name.toList r.toList lead)
    (hroot : PlainRoot cwd root name) : ∃ lead', Leads root.toList name.toList r.toList lead' ∧ ':' ∉ lead' ∧
      '\\' ∉ lead' ∧ ∀ cs, ':' ∉ cs → dropScheme (lead ++ cs) = lead' ++ cs := by
  have hself : ':' ∉ lead → '\\' ∉ lead → ∃ lead', Leads root.toList name.toList r.toList lead' ∧
      ':' ∉ lead' ∧ '\\' ∉ lead' ∧ ∀ cs, ':' ∉ cs → dropScheme (lead ++ cs) = lead' ++ cs :=
    fun hcolon hback => ⟨lead, h, hcolon, hback, fun cs hcs =>
      dropScheme_of_colon fun hmem => (List.mem_append.1 hmem).elim hcolon hcs⟩
  have htop : ':' ∉ root.toList ++ ['/'] ∧ '\\' ∉ root.toList ++ ['/'] := by
    simp [hroot.colon, hroot.backslash]
  have hname : ':' ∉ name.toList ∧ '\\' ∉ name.toList :=
    ⟨fun hmem => hroot.colon (hroot.name_spec.2.2 _ hmem), fun hmem => hroot.backslash (hroot.name_spec.2.2 _ hmem)⟩
  cases h with
  | here n => exact hself (by simp) (by simp)
  | top => exact hself htop.1 htop.2
  | address hscheme =>
    refine ⟨_, .top, htop.1, htop.2, fun cs _ => ?_⟩
    rw [List.append_assoc, dropScheme_append hscheme]
  | below => exact hself (by simp [hname.1]) (by simp [hname.2])
  | above hback hcolon _ _ _ => exact hself (by simp [hname.1, hcolon]) (by simp [hname.2, hback])

/-! ## Cutting -/

theorem below?_eq_none {top : List Char} (hne : cs ≠ top) (h : ¬ (top ++ ['/']) <+: cs) : below? top cs = none := by
  have hnone : ¬ (cs = top ∨ (top ++ ['/']).isPrefixOf cs = true) := by
    rw [List.isPrefixOf_iff_prefix]
    exact not_or.2 ⟨hne, h⟩
  rw [below?, if_neg hnone, ite_self]

/-- Further in front is no later place. -/
theorem afterLast_append (h : afterLast needle cs = some rest) (way : List Char) :
    afterLast needle (way ++ cs) = some rest := by
  induction way with
  | nil => exact h
  | cons c way ih => rw [List.cons_append, afterLast, ih]

/-- A directory that is not on the rest of the path stands last where it stands in front of that. -/
theorem afterLast_directory {n : List Char} (hn : '/' ∉ n) (h : ¬ ('/' :: n ++ ['/']) <:+: '/' :: rest)
    (way : List Char) : afterLast ('/' :: n ++ ['/']) (way ++ ('/' :: n ++ ['/']) ++ rest) = some rest := by
  have hlater : afterLast ('/' :: n ++ ['/']) (n ++ '/' :: rest) = none := by
    rw [afterLast_eq_none_iff (by simp), List.cons_append, infix_piece_append hn]
    exact h
  have hhere : ('/' :: n ++ ['/']).isPrefixOf ('/' :: (n ++ '/' :: rest)) = true :=
    List.isPrefixOf_iff_prefix.2 ⟨rest, by simp⟩
  have hchars : '/' :: n ++ ['/'] ++ rest = '/' :: (n ++ '/' :: rest) := by simp
  rw [List.append_assoc]
  refine afterLast_append ?_ way
  rw [hchars, afterLast, hlater]
  simp only [hhere, if_true]
  simp

/-- Without the names `.` and the slashes in front of a way, what follows it still follows a way. -/
theorem exists_way (hdots : dropDots cs = cs) (hslashes : dropSlashes cs = cs) (way : List Char) :
    ∃ way', '/' :: dropSlashes (dropDots (way ++ '/' :: cs)) = way' ++ '/' :: cs := by
  generalize hpath : way ++ '/' :: cs = path
  fun_induction dropDots path generalizing way with
  | case1 rest ih =>
    rcases way with _ | ⟨c, _ | ⟨e, way⟩⟩
    · cases hpath
    · cases hpath
      exact ⟨[], by rw [hdots, hslashes, List.nil_append]⟩
    · cases hpath
      exact ih way rfl
  | case2 path hne =>
    rw [← hpath, dropSlashes, List.dropWhile_append]
    split
    · exact ⟨[], congrArg (List.cons '/') hslashes⟩
    · exact ⟨'/' :: way.dropWhile (· == '/'), rfl⟩

/-- What follows a directory is left if the directory is not on it again. -/
theorem afterName_of_way {n : List Char} (hne : n ≠ []) (hn : '/' ∉ n)
    (h : ¬ ('/' :: n ++ ['/']) <:+: '/' :: rest)
    (hway : ∃ way, '/' :: dropSlashes (dropDots cs) = way ++ ('/' :: n ++ ['/']) ++ rest) :
    afterName n cs = rest := by
  obtain ⟨way, hway⟩ := hway
  have hempty : n.isEmpty ≠ true := by simpa using hne
  rw [afterName, if_neg hempty]
  simp only [hway, afterLast_directory hn h way, Option.getD_some]

/-- A path on which no directory has the name is left as it is, without the names `.` in front. -/
theorem afterName_of_none {n : List Char} (hn : n ≠ [])
    (h : ¬ ('/' :: n ++ ['/']) <:+: '/' :: dropSlashes (dropDots cs)) : afterName n cs = dropDots cs := by
  have hempty : n.isEmpty ≠ true := by simpa using hn
  rw [afterName, if_neg hempty]
  simp only [(afterLast_eq_none_iff (by simp) _).2 h, Option.getD_none]

namespace PlainRoot

/-- Below the top what follows it is left, and a path that is not below the top is cut after the name. -/
theorem cutRoot_eq (h : PlainRoot cwd root name) (cs : List Char) :
    cutRoot ⟨root, root⟩ cs = (below? root.toList cs).getD (afterName name.toList cs) := by
  obtain ⟨rest, hrest⟩ := h.slash_cons
  have hdrive : ¬ HasDrive root.toList := fun hd =>
    h.colon ((tail_suffix _).subset (List.mem_of_head? hd))
  rw [CorpusPath.cutRoot_eq hrest hdrive, h.bareRoot_eq, h.rootName_eq]

theorem cutRoot_top (h : PlainRoot cwd root name) (cs : List Char) :
    cutRoot ⟨root, root⟩ (root.toList ++ '/' :: cs) = '/' :: cs := by
  have hne : root.toList.isEmpty ≠ true := by
    obtain ⟨rest, hrest⟩ := h.slash_cons
    simp [hrest]
  have hprefix : (root.toList ++ ['/']).isPrefixOf (root.toList ++ '/' :: cs) = true := by
    rw [List.isPrefixOf_iff_prefix, List.prefix_append_right_inj]
    exact ⟨cs, rfl⟩
  rw [h.cutRoot_eq, below?, if_neg hne, if_pos (Or.inr hprefix), List.drop_left, Option.getD_some]

/-- The name stands on the way to the top, so two slashes do not meet around it. -/
theorem single_directory (h : PlainRoot cwd root name) : ¬ ['/', '/'] <:+: '/' :: name.toList ++ ['/'] := by
  rw [List.cons_append, List.infix_cons_iff, infix_piece_append h.not_mem_name, List.cons_prefix_cons,
    slash_prefix_iff, List.head?_append_of_ne_nil _ h.name_ne_nil]
  rintro (⟨-, hhead⟩ | hend)
  · exact h.not_mem_name (List.mem_of_head? hhead)
  · exact absurd hend.length_le (by simp)

end PlainRoot

/-! ## What is left of a file -/

section
variable {s : List Char}

namespace PlainFile

theorem head_ne_slash (h : PlainFile name r) (hs : squeeze s = r.toList) : s.head? ≠ some '/' := by
  rw [← head?_squeeze, hs]
  exact h.plain.head_ne

theorem dropSlashes_eq (h : PlainFile name r) (hs : squeeze s = r.toList) : dropSlashes s = s := by
  refine Text.dropWhile_eq_self_iff.2 fun c hc => beq_false_of_ne ?_
  rintro rfl
  exact h.head_ne_slash hs hc

theorem dropDots_eq (h : PlainFile name r) (hs : squeeze s = r.toList) : dropDots s = s := by
  refine dropDots.eq_2 _ fun rest hrest => ?_
  have hdot : ['.', '/'] <+: squeeze s := dot_squeeze_iff.2 ⟨rest, hrest.symm⟩
  rw [hs, ← h.plain.dots] at hdot
  exact (exists_dots_dropDots r.toList).1 hdot

theorem clean_eq (h : PlainFile name r) (hs : squeeze s = r.toList) : clean s = r.toList := by
  rw [clean, h.dropDots_eq hs, h.dropSlashes_eq hs, hs]

theorem clean_slash_cons (h : PlainFile name r) (hs : squeeze s = r.toList) : clean ('/' :: s) = r.toList := by
  have hslashes : dropSlashes ('/' :: s) = dropSlashes s := rfl
  rw [clean, show dropDots ('/' :: s) = '/' :: s from rfl, hslashes, h.dropSlashes_eq hs, hs]

/-- However the slashes of a file are written, no directory on it has the name of the corpus. -/
theorem not_directory (h : PlainFile name r) (hroot : PlainRoot cwd root name) (hs : squeeze s = r.toList) :
    ¬ ('/' :: name.toList ++ ['/']) <:+: '/' :: s := by
  intro hdirectory
  have hsqueeze := infix_squeeze hroot.single_directory hdirectory
  rw [squeeze_slash_cons hs h.single_slash_cons, infix_iff_mem_pieces hroot.not_mem_name] at hsqueeze
  exact h.directories hsqueeze

end PlainFile

namespace PlainRoot

/-- A relative path is not below the top. -/
theorem below?_relative (h : PlainRoot cwd root name) (hcs : cs.head? ≠ some '/') :
    below? root.toList cs = none := by
  obtain ⟨rest, hrest⟩ := h.slash_cons
  refine below?_eq_none ?_ ?_
  · rintro rfl
    exact hcs h.absolute
  · rintro ⟨more, rfl⟩
    rw [hrest] at hcs
    exact hcs rfl

/-- A slash behind the top is the only one there. -/
theorem single_top (h : PlainRoot cwd root name) : ¬ ['/', '/'] <:+: root.toList ++ ['/'] := by
  rw [List.infix_concat_iff]
  rintro (⟨way, hway⟩ | hinner)
  · refine h.ending ?_
    have htop : way ++ ['/'] = root.toList := by
      rw [← List.append_left_inj ['/'], ← hway, List.append_assoc]
      rfl
    rw [← htop, List.getLast?_concat]
  · exact h.single hinner

/-- However its slashes are written, a path that is not below the top stays apart from it. -/
theorem below?_respelled (h : PlainRoot cwd root name) (hs : squeeze s = r.toList) {lead : List Char}
    (outside : ¬ (root.toList ++ ['/']) <+: lead ++ r.toList) (other : lead ++ r.toList ≠ root.toList) :
    below? root.toList (lead ++ s) = none := by
  refine below?_eq_none ?_ fun hprefix => ?_
  · intro heq
    have hsingle : ¬ ['/', '/'] <:+: s := fun hslashes =>
      h.single (heq ▸ hslashes.trans (List.suffix_append lead s).isInfix)
    rw [squeeze_eq_self hsingle] at hs
    exact other (hs ▸ heq)
  · rcases List.prefix_or_prefix_of_prefix hprefix (List.prefix_append lead s) with hlead | ⟨start, hstart⟩
    · exact outside (hlead.trans (List.prefix_append ..))
    · -- The top ends in the file, where its slashes are single.
      have hsingle : ¬ ['/', '/'] <:+: start := fun hslashes =>
        h.single_top (hstart ▸ hslashes.trans (List.suffix_append lead start).isInfix)
      rw [← hstart, List.prefix_append_right_inj] at hprefix
      refine outside ?_
      rw [← hstart, List.prefix_append_right_inj, ← hs]
      exact prefix_squeeze hsingle hprefix

theorem dropDots_name (h : PlainRoot cwd root name) (cs : List Char) :
    dropDots (name.toList ++ '/' :: cs) = name.toList ++ '/' :: cs := by
  refine dropDots.eq_2 _ fun rest hrest => ?_
  have hn := h.not_mem_name
  have hdot : name.toList ≠ ['.'] := fun hdot => h.name_spec.2.1 (String.toList_inj.1 hdot)
  rcases hchars : name.toList with _ | ⟨c, _ | ⟨e, n⟩⟩
  · exact h.name_ne_nil hchars
  · rw [hchars] at hrest hdot
    cases hrest
    exact hdot rfl
  · rw [hchars] at hrest hn
    cases hrest
    exact hn (by simp)

theorem dropSlashes_name (h : PlainRoot cwd root name) (cs : List Char) :
    dropSlashes (name.toList ++ cs) = name.toList ++ cs := by
  refine Text.dropWhile_eq_self_iff.2 fun c hc => beq_false_of_ne ?_
  rintro rfl
  rw [List.head?_append_of_ne_nil _ h.name_ne_nil] at hc
  exact h.not_mem_name (List.mem_of_head? hc)

end PlainRoot

/-! ## Every way to a file -/

/-- What stands in front of a file is cut off. -/
theorem clean_cutRoot {lead : List Char} (hroot : PlainRoot cwd root name) (hfile : PlainFile name r)
    (hs : squeeze s = r.toList) (hlead : Leads root.toList name.toList r.toList lead) (hcolon : ':' ∉ lead) :
    clean (cutRoot ⟨root, root⟩ (lead ++ s)) = r.toList := by
  have hnot := hfile.not_directory hroot hs
  have hway : ∀ q, (∃ way, '/' :: dropSlashes (dropDots q) = way ++ '/' :: (name.toList ++ '/' :: s)) →
      afterName name.toList q = s := by
    rintro q ⟨way, hway⟩
    exact afterName_of_way hroot.name_ne_nil hroot.not_mem_name hnot ⟨way, by simpa using hway⟩
  cases hlead with
  | here n =>
    have hrelative : ((List.replicate n ['.', '/']).flatten ++ s).head? ≠ some '/' := by
      cases n with
      | zero => exact hfile.head_ne_slash hs
      | succ n => simp [List.replicate_succ]
    rw [hroot.cutRoot_eq, hroot.below?_relative hrelative, Option.getD_none, afterName_of_none hroot.name_ne_nil] <;>
      rw [dropDots_dots, hfile.dropDots_eq hs]
    · exact hfile.clean_eq hs
    · rwa [hfile.dropSlashes_eq hs]
  | top =>
    rw [List.append_assoc, List.singleton_append, hroot.cutRoot_top]
    exact hfile.clean_slash_cons hs
  | address hscheme => exact absurd (List.mem_append_left _ (colon_mem_of_file hscheme)) hcolon
  | below =>
    have hrelative : (name.toList ++ ['/'] ++ s).head? ≠ some '/' := by
      rw [List.append_assoc, List.head?_append_of_ne_nil _ hroot.name_ne_nil]
      exact fun hhead => hroot.not_mem_name (List.mem_of_head? hhead)
    rw [hroot.cutRoot_eq, hroot.below?_relative hrelative, Option.getD_none, hway _ ⟨[], ?_⟩]
    · exact hfile.clean_eq hs
    · rw [List.append_assoc, List.singleton_append, hroot.dropDots_name, hroot.dropSlashes_name, List.nil_append]
  | @above q _ _ _ outside other =>
    rw [hroot.cutRoot_eq, hroot.below?_respelled hs outside other, Option.getD_none, hway]
    · exact hfile.clean_eq hs
    · have hexists := exists_way (hroot.dropDots_name s) (hroot.dropSlashes_name _) q
      simpa using hexists

/-- **Spellings.** Whatever stands in front of a file of a corpus, however its slashes are written, and whatever
blanks are around it, the path that a tool names is that of the file. -/
theorem ofTool_of_leads {lead file before after : List Char} (hroot : PlainRoot cwd root name)
    (hfile : PlainFile name r) (hlead : Leads root.toList name.toList r.toList lead)
    (hspelled : Respelled r.toList file) (hbefore : Text.isAllBlank before = true)
    (hafter : Text.isAllBlank after = true) :
    ofTool (some (CorpusRoot.ofText cwd root)) (String.ofList (before ++ (lead ++ file) ++ after)) = .ok r := by
  have hne : file ≠ [] := hspelled.ne_nil hfile.ne_nil
  have hcolon : ':' ∉ file := by
    intro hmem
    rcases hspelled.mem hmem with hmem | h | h
    · exact hfile.colon hmem
    · exact absurd h (by decide)
    · exact absurd h (by decide)
  have htrim : Text.trim (before ++ (lead ++ file) ++ after) = lead ++ file := by
    refine Text.trim_enclosed hbefore hafter (List.append_ne_nil_of_right_ne_nil _ hne) ?_ ?_
    · refine Text.trimStart_eq_self_iff.2 fun c hc => ?_
      rw [List.head?_append] at hc
      rcases Option.or_eq_some_iff.1 hc with hc | ⟨-, hc⟩
      · exact hlead.start hroot c hc
      · exact Text.trimStart_eq_self_iff.1 (hspelled.trimStart hfile.plain.start) c hc
    · exact Text.trimEnd_append hne (hspelled.trimEnd hfile.plain.ending)
  obtain ⟨lead', hlead', hcolon', hback', hscheme⟩ := hlead.without_scheme hroot
  have hinside : inside (some ⟨root, root⟩) (String.ofList (before ++ (lead ++ file) ++ after)) =
      cutRoot ⟨root, root⟩ (lead' ++ withSlashes file) := by
    have hslashes : withSlashes (lead' ++ file) = lead' ++ withSlashes file := by
      rw [withSlashes_append, withSlashes_eq_self hback']
    have hclear : ':' ∉ lead' ++ withSlashes file := by
      rw [List.mem_append]
      rintro (hmem | hmem)
      · exact hcolon' hmem
      · obtain ⟨c, hc, hslash⟩ := List.mem_map.1 hmem
        split at hslash
        · exact absurd hslash (by decide)
        · exact hcolon (hslash ▸ hc)
    rw [inside, String.toList_ofList, htrim, hscheme file hcolon, hslashes, dropDrive_of_colon hclear]
  have hpath : String.ofList (before ++ (lead ++ file) ++ after) ≠ "" := by
    intro hempty
    have hnil := congrArg String.toList hempty
    rw [String.toList_ofList] at hnil
    simp [hne] at hnil
  rw [ofTool, if_neg hpath, hroot.resolved]
  change Except.ok (normalize (some ⟨root, root⟩) _) = _
  rw [normalize_eq, hinside, clean_cutRoot hroot hfile (hspelled.squeeze hfile.plain.single hfile.backslash) hlead' hcolon',
    String.ofList_toList]

end

end

theorem ofTool_of_leads_elsewhere : ofTool (some (CorpusRoot.ofText [] "/work/corpus"))
    " /elsewhere/corpus/c\\a.c\n" = .ok "c/a.c" := by
  have hroot : PlainRoot [] "/work/corpus" "corpus" :=
    ⟨eq_ok_of_toOption (by decide +kernel), by decide +kernel, by decide +kernel, by decide +kernel, by decide +kernel,
      by decide +kernel, by decide +kernel, by decide +kernel⟩
  have hfile : PlainFile "corpus" "c/a.c" :=
    ⟨by decide +kernel, by decide +kernel, by decide +kernel, by decide +kernel, by decide +kernel, by decide +kernel⟩
  have hlead : Leads "/work/corpus".toList "corpus".toList "c/a.c".toList
      ("/elsewhere".toList ++ ('/' :: "corpus".toList ++ ['/'])) :=
    .above (by decide +kernel) (by decide +kernel) (by decide +kernel) (by decide +kernel) (by decide +kernel)
  have hspelled : Respelled "c/a.c".toList "c\\a.c".toList := .same (.backslash (.same (.same (.same .nil))))
  have hpath : " /elsewhere/corpus/c\\a.c\n" = String.ofList ([' '] ++ ("/elsewhere".toList ++
      ('/' :: "corpus".toList ++ ['/']) ++ "c\\a.c".toList) ++ ['\n']) := by decide +kernel
  rw [hpath]
  exact ofTool_of_leads hroot hfile hlead hspelled (by decide) (by decide)

/-- A way that leads to the top itself, whose last directory has a file of that name, is cut off as a whole. -/
theorem ofTool_root_itself : PlainRoot [] "/a/corpus/corpus" "corpus" ∧ PlainFile "corpus" "corpus" ∧
    ('\\' ∉ "/a".toList ∧ ':' ∉ "/a".toList ∧ "/a".toList.any Text.isBlank = false) ∧
    ¬ ("/a/corpus/corpus".toList ++ ['/']) <+: "/a".toList ++ ('/' :: "corpus".toList ++ ['/']) ++ "corpus".toList ∧
    ofTool (some (CorpusRoot.ofText [] "/a/corpus/corpus"))
      (String.ofList ("/a".toList ++ ('/' :: "corpus".toList ++ ['/']) ++ "corpus".toList)) = .ok "" :=
  ⟨⟨eq_ok_of_toOption (by decide +kernel), by decide +kernel, by decide +kernel, by decide +kernel, by decide +kernel,
      by decide +kernel, by decide +kernel, by decide +kernel⟩,
    ⟨by decide +kernel, by decide +kernel, by decide +kernel, by decide +kernel, by decide +kernel, by decide +kernel⟩,
    by decide +kernel, by decide +kernel, eq_ok_of_toOption (by decide +kernel)⟩

end CorpusPath

end Assay
