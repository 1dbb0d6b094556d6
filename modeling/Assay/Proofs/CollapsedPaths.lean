import Assay.Proofs.PathAgreement

/-!
# The form that paths collapse to

However a path is written and whatever is cut off in front of it, the form that is compared has no backslash,
no two slashes in a row and no slash in front. A name `.` in front is dropped only before the slashes are, so one
that stands behind slashes is kept (`CorpusPath.collapsed_of_ofTool`).
-/

namespace Assay.CorpusPath

variable {cs : List Char}

/-! ## Single slashes -/

theorem squeeze_sublist (cs : List Char) : (squeeze cs).Sublist cs := by
  fun_induction squeeze cs with
  | case1 rest ih => exact ih.trans (List.sublist_cons_self ..)
  | case2 c rest _ ih => exact ih.cons_cons c
  | case3 => exact .slnil

/-- The first character of a path stays. -/
theorem head?_squeeze (cs : List Char) : (squeeze cs).head? = cs.head? := by
  fun_induction squeeze cs with
  | case1 rest ih => exact ih
  | case2 c rest _ ih => rfl
  | case3 => rfl

theorem slash_prefix_iff : ['/'] <+: cs ↔ cs.head? = some '/' := by
  cases cs <;> simp [eq_comm]

theorem single_squeeze (cs : List Char) : ¬ ['/', '/'] <:+: squeeze cs := by
  fun_induction squeeze cs with
  | case1 rest ih => exact ih
  | case2 c rest hne ih =>
    rw [List.infix_cons_iff, not_or]
    refine ⟨fun h => ?_, ih⟩
    obtain ⟨rfl, hrest⟩ := List.cons_prefix_cons.1 h
    -- The slash behind the first one would already stand behind it in the path.
    have hhead : rest.head? = some '/' := by rwa [slash_prefix_iff, head?_squeeze] at hrest
    obtain ⟨more, rfl⟩ := List.head?_eq_some_iff.1 hhead
    exact hne more rfl rfl
  | case3 => simp

/-- A name `.` in front is there before and after. -/
theorem dot_squeeze_iff : ['.', '/'] <+: squeeze cs ↔ ['.', '/'] <+: cs := by
  cases cs with
  | nil => rfl
  | cons c rest =>
    by_cases hc : c = '.'
    · subst hc
      rw [squeeze.eq_2 _ _ (by simp), List.cons_prefix_cons, List.cons_prefix_cons, slash_prefix_iff, slash_prefix_iff,
        head?_squeeze]
    · have hhead := head?_squeeze (c :: rest)
      obtain ⟨more, hmore⟩ := List.head?_eq_some_iff.1 hhead
      rw [hmore, List.cons_prefix_cons, List.cons_prefix_cons]
      simp [Ne.symm hc]

/-! ## Leading slashes and dots -/

theorem head_dropSlashes (cs : List Char) : ¬ ['/'] <+: dropSlashes cs := by
  intro h
  have hhead := List.head?_dropWhile_not (· == '/') cs
  rw [← dropSlashes, slash_prefix_iff.1 h] at hhead
  simp at hhead

theorem exists_slashes_dropSlashes (cs : List Char) : ∃ m, cs = List.replicate m '/' ++ dropSlashes cs := by
  refine ⟨(cs.takeWhile (· == '/')).length, ?_⟩
  have hall : cs.takeWhile (· == '/') = List.replicate (cs.takeWhile (· == '/')).length '/' :=
    List.eq_replicate_of_mem fun c hc => by simpa using List.mem_takeWhile_imp hc
  rw [← hall, dropSlashes, List.takeWhile_append_dropWhile]

theorem exists_dots_dropDots (cs : List Char) : ¬ ['.', '/'] <+: dropDots cs ∧
    ∃ k, cs = (List.replicate k ['.', '/']).flatten ++ dropDots cs := by
  fun_induction dropDots cs with
  | case1 rest ih =>
    obtain ⟨hdots, k, hk⟩ := ih
    exact ⟨hdots, k + 1, by rw [List.replicate_succ, List.flatten_cons, List.append_assoc, ← hk]; rfl⟩
  | case2 cs hne =>
    refine ⟨?_, 0, rfl⟩
    rintro ⟨rest, rfl⟩
    exact hne rest rfl

theorem dropDots_dots (k : ℕ) (cs : List Char) : dropDots ((List.replicate k ['.', '/']).flatten ++ cs) = dropDots cs := by
  induction k with
  | zero => rfl
  | succ k ih =>
    rw [List.replicate_succ, List.flatten_cons, List.append_assoc]
    exact ih

/-- Whether a path hides a name `.` behind slashes, which names `.` may stand in front of. -/
def HidesDot (cs : List Char) : Prop :=
  ∃ k m rest, 0 < m ∧ cs = (List.replicate k ['.', '/']).flatten ++ (List.replicate m '/' ++ '.' :: '/' :: rest)

/-- A hidden name `.` is what is left in front of a clean path. -/
theorem dot_clean_iff : ['.', '/'] <+: clean cs ↔ HidesDot cs := by
  rw [clean, dot_squeeze_iff]
  constructor
  · rintro ⟨rest, hrest⟩
    obtain ⟨hdots, k, hk⟩ := exists_dots_dropDots cs
    obtain ⟨m, hm⟩ := exists_slashes_dropSlashes (dropDots cs)
    refine ⟨k, m, rest, Nat.pos_of_ne_zero ?_, ?_⟩
    · rintro rfl
      exact hdots ⟨rest, hrest.trans hm.symm⟩
    · rw [← show '.' :: '/' :: rest = dropSlashes (dropDots cs) from hrest] at hm
      rw [← hm]
      exact hk
  · rintro ⟨k, m, rest, hm, rfl⟩
    obtain ⟨m, rfl⟩ := Nat.exists_eq_succ_of_ne_zero hm.ne'
    have hslashes : ∀ c ∈ List.replicate (m + 1) '/', (c == '/') = true := by simp
    have hdots : dropDots (List.replicate (m + 1) '/' ++ '.' :: '/' :: rest) =
        List.replicate (m + 1) '/' ++ '.' :: '/' :: rest := rfl
    refine ⟨rest, ?_⟩
    rw [dropDots_dots, hdots, dropSlashes, List.dropWhile_append_of_pos hslashes]
    rfl

theorem HidesDot.between (h : HidesDot cs) : ['/', '.', '/'] <:+: cs := by
  obtain ⟨k, m, rest, hm, rfl⟩ := h
  obtain ⟨m, rfl⟩ := Nat.exists_eq_succ_of_ne_zero hm.ne'
  refine ⟨(List.replicate k ['.', '/']).flatten ++ List.replicate m '/', rest, ?_⟩
  simp [List.replicate_succ']

/-! ## What is cleaned -/

/-- The part of a path in the corpus, before it is cleaned. -/
def inside (root : Option CorpusRoot) (path : String) : List Char :=
  let cs := dropDrive (withSlashes (dropScheme (Text.trim path.toList)))
  match root with
  | some r => cutRoot r cs
  | none => cs

theorem normalize_eq (root : Option CorpusRoot) (path : String) :
    normalize root path = String.ofList (clean (inside root path)) := rfl

theorem dropScheme_suffix (cs : List Char) : dropScheme cs <:+ cs := by
  unfold dropScheme
  split
  · exact List.drop_suffix ..
  · exact List.suffix_rfl

theorem tail_suffix (cs : List Char) : Text.tail cs <:+ cs := by
  unfold Text.tail
  split
  next c d rest =>
    split
    · exact (List.suffix_cons d rest).trans (List.suffix_cons ..)
    · exact List.suffix_cons ..
  next => exact List.nil_suffix

theorem dropDrive_suffix (cs : List Char) : dropDrive cs <:+ cs := by
  unfold dropDrive
  split
  next rest hrest => exact (List.suffix_cons ':' rest).trans (hrest ▸ tail_suffix cs)
  next => exact List.suffix_rfl

theorem below?_suffix {top rest : List Char} (h : below? top cs = some rest) : rest <:+ cs := by
  unfold below? at h
  split at h
  · cases h
  · split at h
    · cases h
      exact List.drop_suffix ..
    · cases h

theorem afterLast_suffix {needle rest : List Char} (h : afterLast needle cs = some rest) : rest <:+ cs := by
  induction cs with
  | nil => cases h
  | cons c cs ih =>
    unfold afterLast at h
    split at h
    next r hr =>
      cases h
      exact (ih hr).trans (List.suffix_cons ..)
    next =>
      split at h
      · cases h
        exact List.drop_suffix ..
      · cases h

theorem afterName_suffix (name cs : List Char) : afterName name cs <:+ cs := by
  unfold afterName
  split
  · exact List.suffix_rfl
  · simp only
    have hdots := dropDots_suffix cs
    cases h : afterLast ('/' :: name ++ ['/']) ('/' :: dropSlashes (dropDots cs)) with
    | none => exact hdots
    | some rest =>
      rcases List.suffix_cons_iff.1 (afterLast_suffix h) with hall | hrest
      · have hlength := length_of_afterLast h
        rw [hall] at hlength
        simp at hlength
      · exact (hrest.trans (List.dropWhile_suffix ..)).trans hdots

theorem cutRoot_suffix (root : CorpusRoot) (cs : List Char) : cutRoot root cs <:+ cs := by
  unfold cutRoot
  simp only
  split
  next hgiven => exact below?_suffix hgiven
  next =>
    split
    next hresolved => exact below?_suffix hresolved
    next => exact afterName_suffix ..

theorem inside_suffix (root : Option CorpusRoot) (path : String) :
    inside root path <:+ withSlashes (dropScheme (Text.trim path.toList)) := by
  cases root with
  | none => exact dropDrive_suffix _
  | some r => exact (cutRoot_suffix ..).trans (dropDrive_suffix _)

theorem infix_trim (cs : List Char) : Text.trim cs <:+: cs :=
  (List.rdropWhile_prefix ..).isInfix.trans (List.dropWhile_suffix ..).isInfix

theorem infix_inside (root : Option CorpusRoot) (path : String) : inside root path <:+: withSlashes path.toList :=
  (inside_suffix root path).isInfix.trans (((dropScheme_suffix _).isInfix.trans (infix_trim _)).map _)

/-! ## The form of a path -/

/-- A path in its form has no backslash, no slash in front and no two in a row. A name `.` is in front of it
exactly if one is hidden. -/
structure Collapsed (cs form : List Char) : Prop where
  backslash : '\\' ∉ form
  single : ¬ ['/', '/'] <:+: form
  relative : ¬ ['/'] <+: form
  dot : ['.', '/'] <+: form ↔ HidesDot cs

theorem collapsed_clean (h : '\\' ∉ cs) : Collapsed cs (clean cs) where
  backslash hmem := h ((dropDots_suffix cs).subset
    ((List.dropWhile_suffix (· == '/')).subset ((squeeze_sublist _).subset hmem)))
  single := single_squeeze _
  relative hslash := by
    rw [slash_prefix_iff, clean, head?_squeeze, ← slash_prefix_iff] at hslash
    exact head_dropSlashes _ hslash
  dot := dot_clean_iff

theorem collapsed_normalize (root : Option CorpusRoot) (path : String) :
    Collapsed (inside root path) (normalize root path).toList := by
  rw [normalize_eq, String.toList_ofList]
  exact collapsed_clean fun h => not_mem_withSlashes _ ((inside_suffix root path).subset h)

/-- **Collapsed form.** Every path is brought to its form unless it is asked for below a top that is a fault. A
name `.` can be left in front of the form only if one stands between slashes in the path. -/
theorem collapsed_of_ofTool (root : Option (Except Fault CorpusRoot)) (path : String) :
    (∃ f, root = some (.error f) ∧ ofTool root path = .error f) ∨
    ∃ top form, (root = Option.map .ok top ∨ path = "") ∧ ofTool root path = .ok form ∧
      Collapsed (inside top path) form.toList ∧
      (¬ ['/', '.', '/'] <:+: withSlashes path.toList → ¬ ['.', '/'] <+: form.toList) := by
  have hform : ∀ top, ¬ ['/', '.', '/'] <:+: withSlashes path.toList →
      ¬ ['.', '/'] <+: (normalize top path).toList := fun top hpath hdot =>
    hpath (((collapsed_normalize top path).dot.1 hdot).between.trans (infix_inside top path))
  unfold ofTool
  split
  next hempty =>
    subst hempty
    exact .inr ⟨none, "", .inr rfl, rfl, collapsed_normalize none "", hform none⟩
  next hne =>
    rcases root with _ | f | top
    · exact .inr ⟨none, _, .inl rfl, rfl, collapsed_normalize none path, hform none⟩
    · exact .inl ⟨f, rfl, rfl⟩
    · exact .inr ⟨some top, _, .inl rfl, rfl, collapsed_normalize (some top) path, hform (some top)⟩

/-- A name `.` that follows the top of the corpus is left in front. -/
theorem ofTool_dot_below_root :
    ofTool (some (CorpusRoot.ofText [] "/work/corpus")) "/work/corpus/./a.c" = .ok "./a.c" ∧
      ofTool none ".//./a.c" = .ok "./a.c" :=
  ⟨eq_ok_of_toOption (by decide +kernel), eq_ok_of_toOption (by decide +kernel)⟩

end Assay.CorpusPath
