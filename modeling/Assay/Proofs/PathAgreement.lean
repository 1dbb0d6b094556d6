import Assay.Normalize
import Assay.Proofs.FileText
import Assay.Proofs.LoadedCorpus
import Assay.Proofs.TextParts

/-!
# The two forms of a path

Annotations write the path of a file in one form, and the paths that tools report are brought to
another. Here the two meet: a tool that names an annotated file from the top of the disk is
understood, and one that names it relative to the corpus is understood unless a directory on the way
has the name of the corpus, after which everything in front is taken for the way to the corpus, or
the path starts with the mark of a drive.
-/

namespace Assay

namespace Path

/-! ## Pieces -/

theorem piecesFrom_ne_nil (piece cs : List Char) : piecesFrom piece cs ≠ [] := by
  fun_induction piecesFrom piece cs with
  | case1 => simp
  | case2 => simp
  | case3 piece c rest _ ih => exact ih

theorem not_mem_of_mem_piecesFrom {q : List Char} : ∀ {cs piece : List Char}, '/' ∉ piece →
    q ∈ piecesFrom piece cs → '/' ∉ q
  | [], piece, hp, hq => by
    cases List.mem_singleton.1 hq
    simpa using hp
  | c :: rest, piece, hp, hq => by
    by_cases hc : c = '/'
    · subst hc
      rcases List.mem_cons.1 hq with rfl | hq
      · simpa using hp
      · exact not_mem_of_mem_piecesFrom (by simp) hq
    · rw [piecesFrom.eq_3 _ _ _ (fun h => hc h)] at hq
      exact not_mem_of_mem_piecesFrom (by simp [hp, Ne.symm hc]) hq

/-- A piece between slashes holds none. -/
theorem not_mem_of_mem_pieces {cs q : List Char} (h : q ∈ pieces cs) : '/' ∉ q :=
  not_mem_of_mem_piecesFrom (by simp) h

/-- A path that starts with a slash has a root. -/
theorem rootOf_slash_ne (rest : List Char) : rootOf ('/' :: rest) ≠ "" := by
  unfold rootOf
  split
  · simp
  · simp
  · simp
  · next h => exact absurd rfl (h rest)

/-- The last name of a path holds no slash. -/
theorem not_mem_name (s : String) : '/' ∉ (ofText s).name.toList := by
  unfold name
  cases h : (ofText s).names.getLast? with
  | none => simp
  | some n =>
    have hn : n ∈ (ofText s).names := List.mem_of_getLast? h
    obtain ⟨q, hq, rfl⟩ := List.mem_map.1 (List.mem_filter.1 hn).1
    simpa using not_mem_of_mem_pieces hq

end Path

namespace CorpusPath

/-! ## Directories on a path -/

/-- A piece that a slash ends is the first one. -/
theorem prefix_slash_iff : ∀ {n piece rest : List Char}, '/' ∉ n → '/' ∉ piece →
    (n ++ ['/'] <+: piece ++ '/' :: rest ↔ n = piece)
  | [], [], rest, _, _ => by simp
  | [], c :: piece, rest, _, hp => by
    have hc : '/' ≠ c := fun h => hp (h ▸ List.mem_cons_self ..)
    simp [hc]
  | c :: n, [], rest, hn, _ => by
    have hc : c ≠ '/' := fun h => hn (h ▸ List.mem_cons_self ..)
    simp [hc]
  | c :: n, e :: piece, rest, hn, hp => by
    have hn' : '/' ∉ n := fun h => hn (List.mem_cons_of_mem _ h)
    have hp' : '/' ∉ piece := fun h => hp (List.mem_cons_of_mem _ h)
    rw [List.cons_append, List.cons_append, List.cons_prefix_cons, prefix_slash_iff hn' hp',
      List.cons.injEq]

/-- What starts with a slash stands nowhere in a piece. -/
theorem infix_piece_append {l piece rest : List Char} (hp : '/' ∉ piece) :
    ('/' :: l) <:+: (piece ++ rest) ↔ ('/' :: l) <:+: rest := by
  induction piece with
  | nil => rfl
  | cons c piece ih =>
    have hc : '/' ≠ c := fun h => hp (h ▸ List.mem_cons_self ..)
    rw [List.cons_append, List.infix_cons_iff, List.cons_prefix_cons,
      ih fun h => hp (List.mem_cons_of_mem _ h)]
    simp [hc]

/-- A name between slashes is that of a directory on the path, counted from a first piece. -/
theorem infix_iff_mem_piecesFrom {n : List Char} (hn : '/' ∉ n) : ∀ {cs piece : List Char},
    '/' ∉ piece → (('/' :: n ++ ['/']) <:+: ('/' :: (piece.reverse ++ cs)) ↔
      n ∈ (Path.piecesFrom piece cs).dropLast)
  | [], piece, hp => by
    have hp' : '/' ∉ piece.reverse := by simpa using hp
    rw [Path.piecesFrom, List.append_nil, List.cons_append, List.infix_cons_iff,
      List.cons_prefix_cons]
    have hpre : ¬ n ++ ['/'] <+: piece.reverse := fun h => hp' (h.subset (by simp))
    have hinf : ¬ ('/' :: (n ++ ['/'])) <:+: piece.reverse := fun h => hp' (h.subset (by simp))
    simp [hpre, hinf]
  | c :: rest, piece, hp => by
    have hp' : '/' ∉ piece.reverse := by simpa using hp
    by_cases hc : c = '/'
    · subst hc
      rw [Path.piecesFrom, List.dropLast_cons_of_ne_nil (Path.piecesFrom_ne_nil _ _), List.mem_cons,
        ← infix_iff_mem_piecesFrom hn (by simp), List.cons_append, List.infix_cons_iff,
        List.cons_prefix_cons, prefix_slash_iff hn hp', infix_piece_append hp']
      simp
    · rw [Path.piecesFrom.eq_3 _ _ _ (fun h => hc h),
        ← infix_iff_mem_piecesFrom hn (by simp [hp, Ne.symm hc])]
      simp

/-- A name between slashes is that of a directory on the path. -/
theorem infix_iff_mem_pieces {n cs : List Char} (hn : '/' ∉ n) :
    ('/' :: n ++ ['/']) <:+: ('/' :: cs) ↔ n ∈ (Path.pieces cs).dropLast := by
  have h := @infix_iff_mem_piecesFrom n hn cs [] (by simp)
  simpa [Path.pieces] using h

/-! ## Cutting and cleaning -/

theorem afterLast_eq_none_iff {needle : List Char} (h : needle ≠ []) (cs : List Char) :
    afterLast needle cs = none ↔ ¬ needle <:+: cs := by
  induction cs with
  | nil => simp [afterLast, h]
  | cons c rest ih =>
    rw [afterLast, List.infix_cons_iff, not_or, ← ih, ← List.isPrefixOf_iff_prefix]
    cases afterLast needle rest with
    | some r => simp
    | none => simp

/-- What follows a text is shorter than the whole by that text. -/
theorem length_of_afterLast {needle r : List Char} : ∀ {cs : List Char},
    afterLast needle cs = some r → r.length + needle.length ≤ cs.length
  | [], h => by cases h
  | c :: rest, h => by
    unfold afterLast at h
    split at h
    · next r' hr =>
      cases h
      have := length_of_afterLast hr
      rw [List.length_cons]
      omega
    · split at h
      · next hp =>
        have hlen := (List.isPrefixOf_iff_prefix.1 hp).length_le
        cases h
        rw [List.length_drop]
        omega
      · cases h

theorem length_dropDots_le : ∀ cs : List Char, (dropDots cs).length ≤ cs.length := by
  intro cs
  fun_induction dropDots cs with
  | case1 rest ih => simp only [List.length_cons]; omega
  | case2 cs => exact le_rfl

theorem length_squeeze_le : ∀ cs : List Char, (squeeze cs).length ≤ cs.length := by
  intro cs
  fun_induction squeeze cs with
  | case1 rest ih => simp only [List.length_cons] at ih ⊢; omega
  | case2 c rest _ ih => simp only [List.length_cons]; omega
  | case3 => exact le_rfl

theorem length_clean_le (cs : List Char) : (clean cs).length ≤ cs.length :=
  calc (clean cs).length ≤ (dropSlashes (dropDots cs)).length := length_squeeze_le _
    _ ≤ (dropDots cs).length := (List.dropWhile_sublist _).length_le
    _ ≤ cs.length := length_dropDots_le cs

/-- Single slashes stay as they are. -/
theorem squeeze_eq_self : ∀ {cs : List Char}, ¬ ['/', '/'] <:+: cs → squeeze cs = cs := by
  intro cs h
  fun_induction squeeze cs with
  | case1 rest => exact absurd ⟨[], rest, rfl⟩ h
  | case2 c rest _ ih => rw [ih fun hr => h (hr.trans (List.infix_cons List.infix_rfl))]
  | case3 => rfl

/-- A path in the form in which paths are compared: names between single slashes, without a dot or a
blank in front. -/
structure Plain (cs : List Char) : Prop where
  slashes : withSlashes cs = cs
  dots : dropDots cs = cs
  relative : dropSlashes cs = cs
  single : ¬ ['/', '/'] <:+: cs
  start : Text.trimStart cs = cs
  ending : Text.trimEnd cs = cs

namespace Plain

variable {cs : List Char}

theorem head_ne (h : Plain cs) : cs.head? ≠ some '/' := by
  intro hhead
  cases cs with
  | nil => cases hhead
  | cons c rest =>
    cases hhead
    have hlen := (List.dropWhile_sublist (l := rest) (· == '/')).length_le
    have hrel : dropSlashes ('/' :: rest) = '/' :: rest := h.relative
    rw [dropSlashes, List.dropWhile_cons_of_pos (by simp)] at hrel
    rw [hrel, List.length_cons] at hlen
    omega

theorem clean_eq (h : Plain cs) : clean cs = cs := by
  rw [clean, h.dots, h.relative, squeeze_eq_self h.single]

/-- Slashes in front of a plain path are cleaned away. -/
theorem clean_append (h : Plain cs) {slashes : List Char} (hs : ∀ c ∈ slashes, c = '/')
    (hne : slashes ≠ []) : clean (slashes ++ cs) = cs := by
  obtain ⟨c, rest, rfl⟩ := List.exists_cons_of_ne_nil hne
  have hc : c = '/' := hs c (List.mem_cons_self ..)
  have hdots : dropDots (c :: rest ++ cs) = c :: rest ++ cs := by
    rw [hc]
    rfl
  have hslashes : dropSlashes (c :: rest ++ cs) = cs := by
    rw [dropSlashes, List.dropWhile_append_of_pos (by simpa using hs)]
    exact h.relative
  rw [clean, hdots, hslashes, squeeze_eq_self h.single]

end Plain

/-! ## Schemes and drives -/

/-- A character whose small form is no small letter is that itself. -/
theorem eq_of_toLower {c d : Char} (hd : ∀ n ∈ List.range 26, (Char.ofNat (65 + n)).toLower ≠ d)
    (h : c.toLower = d) : c = d := by
  by_cases hu : c.val ≥ 'A'.val ∧ c.val ≤ 'Z'.val
  · exfalso
    have hA : 65 ≤ c.toNat := UInt32.le_iff_toNat_le.1 hu.1
    have hZ : c.toNat ≤ 90 := UInt32.le_iff_toNat_le.1 hu.2
    have hc := hd (c.toNat - 65) (List.mem_range.2 (by omega))
    rw [Nat.add_sub_cancel' hA, Char.ofNat_toNat] at hc
    exact hc h
  · rwa [Char.toLower, dif_neg hu] at h

/-- A path without two slashes in a row has no scheme. -/
theorem dropScheme_of_single {cs : List Char} (h : ¬ ['/', '/'] <:+: cs) : dropScheme cs = cs := by
  unfold dropScheme
  rw [if_neg]
  intro hscheme
  have hdrop : ((cs.take 7).drop 5).map Char.toLower = ['/', '/'] := by
    rw [List.map_drop, hscheme]
    rfl
  obtain ⟨a, l, hl, ha, hrest⟩ := List.map_eq_cons_iff.1 hdrop
  obtain ⟨b, l, rfl, hb, hnil⟩ := List.map_eq_cons_iff.1 hrest
  cases List.map_eq_nil_iff.1 hnil
  rw [eq_of_toLower (by decide) ha, eq_of_toLower (by decide) hb] at hl
  refine h (hl ▸ ?_)
  exact ((cs.take 7).drop_suffix 5).isInfix.trans (cs.take_prefix 7).isInfix

/-- A path that starts with a slash has no scheme. -/
theorem dropScheme_slash (cs : List Char) : dropScheme ('/' :: cs) = '/' :: cs := by
  unfold dropScheme
  rw [if_neg]
  simp

/-- Whether a path starts with the mark of a drive: one character and a colon. -/
def HasDrive (cs : List Char) : Prop := (Text.tail cs).head? = some ':'

instance (cs : List Char) : Decidable (HasDrive cs) := by
  unfold HasDrive
  infer_instance

theorem dropDrive_eq_self {cs : List Char} (h : ¬ HasDrive cs) : dropDrive cs = cs := by
  unfold dropDrive
  split
  next rest hrest => exact absurd (by rw [HasDrive, hrest]; rfl) h
  next => rfl

theorem length_dropDrive_lt {cs : List Char} (h : HasDrive cs) : (dropDrive cs).length < cs.length := by
  unfold HasDrive at h
  unfold dropDrive
  split
  next rest hrest =>
    have htail : (Text.tail cs).length ≤ cs.length := by
      unfold Text.tail
      split
      · split <;> simp only [List.length_cons] <;> omega
      · simp
    rw [hrest, List.length_cons] at htail
    omega
  next hne =>
    cases ht : Text.tail cs with
    | nil => rw [ht] at h; cases h
    | cons c rest =>
      rw [ht] at h
      cases h
      exact absurd ht (hne rest)

/-- Whether a path that starts with a slash has the mark of a drive shows in its next character. -/
theorem hasDrive_slash {cs : List Char} : HasDrive ('/' :: cs) ↔ cs.head? = some ':' := by
  have hmark : '/' ≠ Text.mark := by decide
  cases cs with
  | nil => simp [HasDrive, Text.tail]
  | cons c rest => simp [HasDrive, Text.tail, hmark]

/-! ## Normalization -/

/-- The top of a corpus as paths are compared with it: with slashes, none of them at its end. -/
def bareRoot (root : String) : List Char := dropLastSlashes (withSlashes root.toList)

/-- The name of a corpus: the last name on the way to it. -/
def rootName (root : String) : String := (Path.ofText (String.ofList (bareRoot root))).name

/-- A root is its bare form and slashes. -/
theorem exists_slashes (root : String) : ∃ slashes : List Char, (∀ c ∈ slashes, c = '/') ∧
    withSlashes root.toList = bareRoot root ++ slashes := by
  refine ⟨((withSlashes root.toList).reverse.takeWhile (· == '/')).reverse, ?_, ?_⟩
  · intro c hc
    simpa using List.mem_takeWhile_imp (List.mem_reverse.1 hc)
  · rw [bareRoot, dropLastSlashes, Text.dropEnd, ← List.reverse_append, List.takeWhile_append_dropWhile,
      List.reverse_reverse]

theorem withSlashes_append (as bs : List Char) :
    withSlashes (as ++ bs) = withSlashes as ++ withSlashes bs := List.map_append

/-- A root that starts with a slash and has no drive has none in its bare form either. -/
theorem dropDrive_bareRoot {root : String} {rest : List Char} (hroot : root.toList = '/' :: rest)
    (hdrive : ¬ HasDrive root.toList) : dropDrive (bareRoot root) = bareRoot root := by
  rw [hroot, hasDrive_slash] at hdrive
  obtain ⟨slashes, -, hbare⟩ := exists_slashes root
  rw [hroot] at hbare
  cases hb : bareRoot root with
  | nil => rfl
  | cons c b =>
    rw [hb] at hbare
    obtain ⟨hc, htail⟩ := List.cons.inj (show '/' :: withSlashes rest = c :: (b ++ slashes) from hbare)
    subst hc
    refine dropDrive_eq_self ?_
    rw [hasDrive_slash]
    intro hcolon
    obtain ⟨b', rfl⟩ : ∃ b', b = ':' :: b' := by
      cases b with
      | nil => cases hcolon
      | cons e b' => cases hcolon; exact ⟨b', rfl⟩
    cases rest with
    | nil => exact absurd htail (List.cons_ne_nil _ _).symm
    | cons e rest =>
      have he : (if e = '\\' then '/' else e) = ':' := (List.cons.inj htail).1
      split at he
      · exact absurd he (by decide)
      · exact hdrive (congrArg some he)

/-- How the way to the corpus is cut off when its top is given as it is seen from the top of the
disk. -/
theorem cutRoot_eq {root : String} {rest : List Char} (hroot : root.toList = '/' :: rest)
    (hdrive : ¬ HasDrive root.toList) (cs : List Char) :
    cutRoot ⟨root, root⟩ cs = (below? (bareRoot root) cs).getD (afterName (rootName root).toList cs) := by
  have hgiven := dropDrive_bareRoot hroot hdrive
  unfold cutRoot
  rw [rootName]
  unfold bareRoot at hgiven ⊢
  simp only [hgiven]
  cases below? (dropLastSlashes (withSlashes root.toList)) cs with
  | none => rw [Option.getD_none]
  | some r => rw [Option.getD_some]

theorem length_below?_le {top cs r : List Char} (h : below? top cs = some r) :
    r.length ≤ cs.length := by
  unfold below? at h
  split at h
  · cases h
  · split at h
    · cases h
      simp
    · cases h

theorem length_afterName_le (name cs : List Char) : (afterName name cs).length ≤ cs.length := by
  unfold afterName
  split
  · exact le_rfl
  · simp only
    have hdots := length_dropDots_le cs
    cases h : afterLast ('/' :: name ++ ['/']) ('/' :: dropSlashes (dropDots cs)) with
    | none => exact hdots
    | some r =>
      have hr := length_of_afterLast h
      have hs : (dropSlashes (dropDots cs)).length ≤ (dropDots cs).length :=
        (List.dropWhile_sublist _).length_le
      simp only [List.cons_append, List.length_cons, List.length_append] at hr
      simp only [Option.getD_some]
      omega

section

variable {root file : String} {rest : List Char}

/-- A path below a root as its parts are compared: the bare root, some slashes, the file. -/
theorem absolute_eq (hroot : root.toList = '/' :: rest) (hdrive : ¬ HasDrive root.toList)
    (hplain : Plain file.toList) (hne : file ≠ "") : ∃ slashes : List Char,
    (∀ c ∈ slashes, c = '/') ∧ slashes ≠ [] ∧
      dropDrive (withSlashes (dropScheme (Text.trim (root ++ "/" ++ file).toList))) =
        bareRoot root ++ (slashes ++ file.toList) := by
  have hfile : file.toList ≠ [] := fun h => hne (String.toList_inj.1 h)
  have hchars : (root ++ "/" ++ file).toList = root.toList ++ '/' :: file.toList := by
    simp
  have htrim : Text.trim (root ++ "/" ++ file).toList = root.toList ++ '/' :: file.toList := by
    have hstart : Text.trimStart (root.toList ++ '/' :: file.toList) =
        root.toList ++ '/' :: file.toList := by
      rw [hroot]
      rfl
    have hsplit : root.toList ++ '/' :: file.toList = (root.toList ++ ['/']) ++ file.toList := by
      simp
    rw [hchars, Text.trim, hstart, hsplit, Text.trimEnd_append hfile hplain.ending]
  have hscheme : dropScheme (root.toList ++ '/' :: file.toList) =
      root.toList ++ '/' :: file.toList := by
    rw [hroot]
    exact dropScheme_slash _
  obtain ⟨slashes, hslashes, hbare⟩ := exists_slashes root
  have hslashed : withSlashes (root.toList ++ '/' :: file.toList) =
      bareRoot root ++ ((slashes ++ ['/']) ++ file.toList) := by
    have hcons : withSlashes ('/' :: file.toList) = '/' :: file.toList :=
      congrArg (List.cons '/') hplain.slashes
    rw [withSlashes_append, hbare, hcons]
    simp
  refine ⟨slashes ++ ['/'], ?_, by simp, ?_⟩
  · intro c hc
    rcases List.mem_append.1 hc with hc | hc
    · exact hslashes c hc
    · exact List.mem_singleton.1 hc
  · have hdrop : ¬ HasDrive (withSlashes (root.toList ++ '/' :: file.toList)) := by
      rw [hroot] at hdrive ⊢
      rw [hasDrive_slash] at hdrive
      change ¬ HasDrive ('/' :: withSlashes (rest ++ '/' :: file.toList))
      rw [hasDrive_slash]
      cases rest with
      | nil => simp [withSlashes]
      | cons c rest =>
        have hc : c ≠ ':' := fun h => hdrive (congrArg some h)
        by_cases hb : c = '\\' <;> simp [withSlashes, hb, hc]
    rw [htrim, hscheme, dropDrive_eq_self hdrop, hslashed]

/-- A file that is named from the top of the disk is understood. -/
theorem normalize_absolute (hroot : root.toList = '/' :: rest) (hdrive : ¬ HasDrive root.toList)
    (hplain : Plain file.toList) (hne : file ≠ "") :
    normalize (some ⟨root, root⟩) (root ++ "/" ++ file) = file := by
  obtain ⟨slashes, hslashes, hsome, hcs⟩ := absolute_eq hroot hdrive hplain hne
  have hclean : clean (slashes ++ file.toList) = file.toList := hplain.clean_append hslashes hsome
  have hcut : clean (cutRoot ⟨root, root⟩ (bareRoot root ++ (slashes ++ file.toList))) =
      file.toList := by
    rw [cutRoot_eq hroot hdrive]
    cases hb : bareRoot root with
    | nil =>
      have hname : rootName root = "" := by rw [rootName, hb]; rfl
      rw [hname]
      exact hclean
    | cons c b =>
      have hbelow : below? (c :: b) (c :: b ++ (slashes ++ file.toList)) =
          some (slashes ++ file.toList) := by
        obtain ⟨e, more, rfl⟩ := List.exists_cons_of_ne_nil hsome
        have he : e = '/' := hslashes e (List.mem_cons_self ..)
        have hprefix : ((c :: b) ++ ['/']).isPrefixOf (c :: b ++ (e :: more ++ file.toList)) = true := by
          rw [List.isPrefixOf_iff_prefix, he]
          exact (List.prefix_append_right_inj _).2 ⟨more ++ file.toList, rfl⟩
        unfold below?
        rw [if_neg (by simp), if_pos (Or.inr hprefix), List.drop_left]
      rw [hbelow]
      exact hclean
  rw [normalize]
  simp only [hcs, hcut, String.ofList_toList]

/-- A relative path is not below a root. -/
theorem below?_bareRoot_relative (hroot : root.toList = '/' :: rest) {cs : List Char}
    (hplain : Plain cs) : below? (bareRoot root) cs = none := by
  have hslash := hplain.head_ne
  obtain ⟨slashes, -, hbare⟩ := exists_slashes root
  cases hb : bareRoot root with
  | nil => rfl
  | cons c b =>
    rw [hroot, hb] at hbare
    have hc : '/' = c := (List.cons.inj (show '/' :: withSlashes rest = c :: (b ++ slashes) from hbare)).1
    subst hc
    unfold below?
    rw [if_neg (by simp), if_neg]
    rintro (rfl | hprefix)
    · exact hslash rfl
    · obtain ⟨more, rfl⟩ := List.isPrefixOf_iff_prefix.1 hprefix
      exact hslash rfl

/-- Cutting after a name leaves a plain path as it is exactly if no directory on it has the name. -/
theorem clean_afterName_iff {name cs : List Char} (hplain : Plain cs) (hname : '/' ∉ name) :
    clean (afterName name cs) = cs ↔ name ∉ (Path.pieces cs).dropLast := by
  rw [← infix_iff_mem_pieces hname]
  unfold afterName
  cases name with
  | nil =>
    simp only [List.isEmpty_nil, if_true, hplain.clean_eq, true_iff]
    change ¬ ['/', '/'] <:+: '/' :: cs
    rw [List.infix_cons_iff, List.cons_prefix_cons, not_or]
    refine ⟨?_, hplain.single⟩
    rintro ⟨-, more, rfl⟩
    exact hplain.head_ne rfl
  | cons n name =>
    simp only [List.isEmpty_cons, Bool.false_eq_true, if_false, hplain.dots, hplain.relative]
    rw [← afterLast_eq_none_iff (by simp)]
    cases h : afterLast ('/' :: (n :: name) ++ ['/']) ('/' :: cs) with
    | none => simp [hplain.clean_eq]
    | some r =>
      have hlen := length_of_afterLast h
      simp only [List.cons_append, List.length_cons, List.length_append] at hlen
      have hshort := length_clean_le r
      simp only [Option.getD_some, reduceCtorEq, iff_false]
      intro heq
      rw [heq] at hshort
      omega

theorem length_cut_le (top name cs : List Char) :
    ((below? top cs).getD (afterName name cs)).length ≤ cs.length := by
  cases h : below? top cs with
  | none => exact length_afterName_le name cs
  | some r => exact length_below?_le h

/-- A file that is named relative to the corpus is understood exactly if it has no mark of a drive and
no directory on the way to it has the name of the corpus. -/
theorem normalize_relative_iff (hroot : root.toList = '/' :: rest)
    (hdrive : ¬ HasDrive root.toList) (hplain : Plain file.toList) (hne : file ≠ "") :
    normalize (some ⟨root, root⟩) file = file ↔ ¬ HasDrive file.toList ∧
      (rootName root).toList ∉ (Path.pieces file.toList).dropLast := by
  have hfile : file.toList ≠ [] := fun h => hne (String.toList_inj.1 h)
  have htrim : Text.trim file.toList = file.toList := by
    rw [Text.trim, hplain.start, hplain.ending]
  have hnormal : normalize (some ⟨root, root⟩) file = file ↔
      clean (cutRoot ⟨root, root⟩ (dropDrive file.toList)) = file.toList := by
    rw [normalize]
    simp only [htrim, dropScheme_of_single hplain.single, hplain.slashes]
    rw [← String.toList_inj, String.toList_ofList]
  rw [hnormal, cutRoot_eq hroot hdrive]
  by_cases hd : HasDrive file.toList
  · -- Without its drive the path is too short to become the file again.
    refine ⟨fun h => ?_, fun h => absurd hd h.1⟩
    have hshort : (clean ((below? (bareRoot root) (dropDrive file.toList)).getD
        (afterName (rootName root).toList (dropDrive file.toList)))).length < file.toList.length :=
      (length_clean_le _).trans_lt ((length_cut_le _ _ _).trans_lt (length_dropDrive_lt hd))
    rw [h] at hshort
    exact absurd hshort (lt_irrefl _)
  · rw [dropDrive_eq_self hd, below?_bareRoot_relative hroot hplain, Option.getD_none,
      clean_afterName_iff hplain (show '/' ∉ (rootName root).toList from Path.not_mem_name _)]
    exact ⟨fun h => ⟨hd, h⟩, fun h => h.2⟩

end

/-! ## Files of annotations -/

theorem withSlashes_eq_self {cs : List Char} (h : '\\' ∉ cs) : withSlashes cs = cs := by
  unfold withSlashes
  refine (List.map_congr_left fun c hc => ?_).trans (List.map_id cs)
  have hne : c ≠ '\\' := by
    rintro rfl
    exact h hc
  rw [if_neg hne, id]

theorem not_mem_withSlashes (cs : List Char) : '\\' ∉ withSlashes cs := by
  intro h
  obtain ⟨c, -, hc⟩ := List.mem_map.1 h
  split at hc
  · exact absurd hc (by decide)
  · next hne => exact hne hc

theorem dropDots_suffix (cs : List Char) : dropDots cs <:+ cs := by
  fun_induction dropDots cs with
  | case1 rest ih => exact ih.trans ⟨['.', '/'], rfl⟩
  | case2 cs => exact List.suffix_rfl

theorem dropDots_dropDots (cs : List Char) : dropDots (dropDots cs) = dropDots cs := by
  fun_induction dropDots cs with
  | case1 rest ih => exact ih
  | case2 cs h => exact dropDots.eq_2 cs h

/-- What ends a trimmed text is not blank, nor is it when backslashes have become slashes. -/
theorem trimEnd_of_suffix {cs file : List Char} (h : file <:+ withSlashes (Text.trim cs)) :
    Text.trimEnd file = file := by
  refine List.rdropWhile_eq_self_iff.2 fun hne => ?_
  have hne' : withSlashes (Text.trim cs) ≠ [] := fun h' => hne (List.suffix_nil.1 (h' ▸ h))
  have hne'' : Text.trim cs ≠ [] := fun h' => hne' (by rw [h']; rfl)
  have hlast : ¬ Text.isBlank ((Text.trim cs).getLast hne'') = true :=
    List.rdropWhile_last_not Text.isBlank (Text.trimStart cs) hne''
  rw [h.getLast hne]
  unfold withSlashes
  rw [List.getLast_map]
  split
  · decide
  · exact hlast

/-- The file of an annotation is plain unless it starts with a blank or has two slashes in a row. -/
theorem plain_of_annotated {count : String → Except Fault (Option Nat)} {g : Defect}
    (h : g.Annotated count) (single : ¬ ['/', '/'] <:+: g.file.toList)
    (start : g.file.toList.head?.any Text.isBlank = false) :
    Plain g.file.toList ∧ g.file ≠ "" := by
  obtain ⟨text, hfile⟩ := h.file
  have hsafe := h.safe
  simp only [Path.isSafeRelative, Bool.and_eq_true, bne_iff_ne, ne_eq, Bool.not_eq_true',
    Path.isAbsolute] at hsafe
  obtain ⟨⟨hne, hrelative⟩, -⟩ := hsafe
  have hchars : g.file.toList = dropDots (withSlashes (Text.trim text.toList)) := by
    rw [hfile, Annotation.fileOf, String.toList_ofList, Text.strip, String.toList_ofList]
  have hsuffix : g.file.toList <:+ withSlashes (Text.trim text.toList) := hchars ▸ dropDots_suffix _
  refine ⟨⟨?_, ?_, ?_, single, ?_, trimEnd_of_suffix hsuffix⟩, hne⟩
  · exact withSlashes_eq_self fun hb => not_mem_withSlashes _ (hsuffix.subset hb)
  · rw [hchars, dropDots_dropDots]
  · cases hf : g.file.toList with
    | nil => rfl
    | cons c rest =>
      have hc : c ≠ '/' := by
        rintro rfl
        rw [Path.ofText, hf] at hrelative
        exact Path.rootOf_slash_ne rest (by simpa using hrelative)
      rw [dropSlashes, List.dropWhile_cons_of_neg (by simpa using hc)]
  · cases hf : g.file.toList with
    | nil => rfl
    | cons c rest =>
      rw [hf] at start
      rw [Text.trimStart, List.dropWhile_cons_of_neg (by simpa using start)]

end CorpusPath

namespace Corpus

open CorpusPath

/-- The top of a corpus starts with a slash. -/
theorem toList_path (c : Corpus) : ∃ rest, c.path.toText.toList = '/' :: rest := by
  refine ⟨(Path.joined c.root).toList, ?_⟩
  simp [path, Path.ofNames, Path.toText]

/-- What a tool reports about an annotated file is compared under the name that the annotation gives
it, if the tool names the file from the top of the disk. If it names the file relative to the corpus
this holds exactly of files without the mark of a drive, on the way to which no directory has the name
of the corpus. -/
theorem normalize_listed {d : Disk} {p : Path} {c : Corpus} (hload : load d p = .ok c)
    (hdrive : ¬ HasDrive c.path.toText.toList) {g : Defect} (hg : g ∈ c.listed)
    (single : ¬ ['/', '/'] <:+: g.file.toList)
    (start : g.file.toList.head?.any Text.isBlank = false) :
    normalize (some c.top) (c.path.toText ++ "/" ++ g.file) = g.file ∧
    (normalize (some c.top) g.file = g.file ↔ ¬ HasDrive g.file.toList ∧
      (rootName c.path.toText).toList ∉ (Path.pieces g.file.toList).dropLast) ∧
    ∀ (t : Tool) (x : Crosswalk) (index : Nat) (raw : ToolFinding) (f : Finding),
      Normalized.findingOf t x (some (.ok c.top)) index raw = .ok f →
      raw.file = c.path.toText ++ "/" ++ g.file ∨
        (raw.file = g.file ∧ normalize (some c.top) g.file = g.file) → f.file = g.file := by
  obtain ⟨rest, hroot⟩ := toList_path c
  obtain ⟨hplain, hne⟩ := plain_of_annotated (annotated_of_load hload g hg) single start
  have habsolute := normalize_absolute hroot hdrive hplain hne
  refine ⟨habsolute, normalize_relative_iff hroot hdrive hplain hne, ?_⟩
  intro t x index raw f hf hraw
  obtain ⟨file, hfile, hf⟩ := bind_eq_ok.1 hf
  obtain ⟨severity, -, hf⟩ := bind_eq_ok.1 hf
  cases hf
  have hnormal : normalize (some c.top) raw.file = g.file := by
    rcases hraw with hraw | ⟨hraw, hself⟩
    · rw [hraw]
      exact habsolute
    · rw [hraw]
      exact hself
  unfold ofTool at hfile
  split at hfile
  · next hempty =>
    rcases hraw with hraw | ⟨hraw, -⟩
    · have hchars := congrArg String.toList (hempty.symm.trans hraw)
      simp at hchars
    · exact absurd (hraw.symm.trans hempty) hne
  · have heq : normalize (some c.top) raw.file = file := Except.ok.inj hfile
    exact heq.symm.trans hnormal

/-! ## A corpus with a directory of its own name -/

namespace Nested

/-- The only annotation. -/
def source : List UInt8 :=
  Utf8.encode
    "[\x7b\"id\":\"d\",\"category\":\"other\",\"file\":\"corpus/a.c\",\"line\":\"1\"\x7d]"

/-- A directory `corpus` with a directory `corpus` in it. -/
def disk : Disk :=
  { top := .dir [("corpus", .dir [
      ("corpus", .dir [("a.c", .file [0x78, 0x0A])]),
      ("s.gt.json", .file source)])]
    cwd := [] }

/-- The outer of the two directories. -/
def top : Path := Path.ofNames ["corpus"]

/-- What the annotation says. -/
def item : Value :=
  .record [("id", .text "d"), ("category", .text "other"), ("file", .text "corpus/a.c"),
    ("line", .text "1")]

/-- The defect of the annotation. -/
def defect : Defect :=
  { id := "d", sampleId := "s", category := .other
    location := ⟨"corpus/a.c", 1, 1, none⟩
    severity := .medium, rules := [], note := "", conditional := false
    intentionalDuplicate := false }

/-- The sample of the annotation. -/
def sample : Sample := ⟨"s", "c", [defect], "s.gt.json"⟩

theorem documentOf_source :
    documentOf top ("s.gt.json", source) = .ok (.ok (.list [item])) := by
  have htext : Disk.textOf source = .ok
      "[\x7b\"id\":\"d\",\"category\":\"other\",\"file\":\"corpus/a.c\",\"line\":\"1\"\x7d]" :=
    Disk.textOf_of_whole (.of_all (by decide))
  exact documentOf_of_json htext (by decide +kernel) (by cbv)

theorem defectOf_item :
    Annotation.defectOf (lineCount disk top) "s" "s.gt.json#0" item = .ok (.ok defect) := by
  have hread : ( Annotation.defectOf (lineCount disk top) "s" "s.gt.json#0" item).toOption.bind
      Except.toOption = some defect := by decide
  obtain ⟨r, hr, hd⟩ := Option.bind_eq_some_iff.1 hread
  rw [eq_ok_of_toOption hr, eq_ok_of_toOption hd]

theorem sampleOf_source :
    Annotation.sampleOf (lineCount disk top) "s.gt.json" ⟨"s", "", [item]⟩ = .ok (sample, []) := by
  have hdefects : Annotation.defectsOf (lineCount disk top) "s" "s.gt.json" 0 [item] =
      .ok ([defect], []) := by
    rw [ Annotation.defectsOf]
    change ( Annotation.defectOf (lineCount disk top) "s" "s.gt.json#0" item >>= _) = _
    rw [defectOf_item]
    rfl
  have hlanguage : Annotation.languageOf "corpus/a.c" = "c" := by decide
  have hids : Annotation.idProblems "s" [defect] = [] := by cbv
  have hspots : Annotation.spotProblems "s" [defect] = [] := by cbv
  unfold Annotation.sampleOf
  rw [hdefects]
  simp only [bind, Except.bind, hids, hspots]
  simp [ Annotation.sampleLanguage, sample, defect, Defect.file, hlanguage, pure, Except.pure]

/-- The corpus that is loaded. -/
def corpus : Corpus := ⟨["corpus"], "sha256:b35a73e64e8e", [sample]⟩

theorem versionOf_source : versionOf disk top [("s.gt.json", source)] = .ok corpus.version := by
  have hmanifest : disk.isFile (top.child manifestName) = .ok false := eq_ok_of_toOption (by decide)
  have hdigest : digestVersion [("s.gt.json", source)] = .ok corpus.version := eq_ok_of_toOption (by decide +kernel)
  simp only [versionOf, hmanifest, bind, Except.bind, Bool.not_false, if_true, hdigest]

theorem load_corpus : load disk top = .ok corpus := by
  have hfiles : requireAnnotations disk top = .ok [("s.gt.json", source)] :=
    requireAnnotations_of_find rfl (by cbv)
  have hheader : Annotation.headerOf "s.gt.json" (.list [item]) = .ok (.ok ⟨"s", "", [item]⟩) := by
    cbv
  exact load_of_file rfl hfiles documentOf_source hheader sampleOf_source versionOf_source

/-- The corpus is loaded, and its only defect is that of the annotation. -/
theorem load_disk : ∃ c, load disk top = .ok c ∧ c.root = ["corpus"] ∧ c.listed = [defect] :=
  ⟨corpus, load_corpus, rfl, rfl⟩

end Nested

/-- In a corpus with a directory of its own name a file in that directory is understood from the top of
the disk. -/
theorem normalize_listed_nested : ∃ c, load Nested.disk Nested.top = .ok c ∧
    Nested.defect ∈ c.listed ∧
    normalize (some c.top) (c.path.toText ++ "/" ++ "corpus/a.c") = "corpus/a.c" := by
  obtain ⟨c, hload, hroot, hlisted⟩ := Nested.load_disk
  have hmem : Nested.defect ∈ c.listed := by
    rw [hlisted]
    exact List.mem_singleton_self _
  have hdrive : ¬ HasDrive c.path.toText.toList := by
    rw [path, hroot]
    decide +kernel
  exact ⟨c, hload, hmem,
    (normalize_listed hload hdrive hmem (by decide +kernel) (by decide +kernel)).1⟩

/-- In a corpus with a directory of its own name a file in that directory, named relative to the corpus,
is taken for another one. -/
theorem normalize_listed_same_name : ∃ c, load Nested.disk Nested.top = .ok c ∧
    Nested.defect ∈ c.listed ∧ Nested.defect.file = "corpus/a.c" ∧
    normalize (some c.top) Nested.defect.file = "a.c" := by
  obtain ⟨c, hload, hroot, hlisted⟩ := Nested.load_disk
  refine ⟨c, hload, ?_, rfl, ?_⟩
  · rw [hlisted]
    exact List.mem_singleton_self _
  · rw [Corpus.top, path, hroot]
    decide +kernel

end Corpus

end Assay
