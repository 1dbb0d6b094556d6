import Assay.Files.Disk
import Assay.Proofs.Faultless
import Mathlib.Data.List.Basic

/-!
# Places on a disk

What is put into a tree is found where it was put (`Node.get?_put`). A tree that only gained names lets
every path lead where it led before (`Disk.follow_of_within`), so a place is still reached after a
directory on the way to it grew.
-/

namespace Assay

/-! ## Directories -/

namespace Directory

variable {d : Directory} {name other : String} {m n : Node}

theorem get?_put_self : (d.put name n).get? name = some n := by
  induction d with
  | nil => simp [put, get?]
  | cons e rest ih =>
    obtain ⟨own, old⟩ := e
    by_cases h : own = name
    · simp [put, get?, h]
    · have hne : (name == own) = false := beq_false_of_ne (Ne.symm h)
      simpa [put, get?, h, List.lookup_cons, hne] using ih

theorem get?_put_of_ne (h : other ≠ name) : (d.put name n).get? other = d.get? other := by
  have hne : (other == name) = false := beq_false_of_ne h
  induction d with
  | nil => simp [put, get?, List.lookup_cons, hne]
  | cons e rest ih =>
    obtain ⟨own, old⟩ := e
    by_cases hown : own = name
    · simp [put, get?, hown, List.lookup_cons, hne]
    · by_cases ho : other = own
      · simp [put, get?, hown, ho]
      · have hne : (other == own) = false := beq_false_of_ne ho
        simpa [put, get?, hown, List.lookup_cons, hne] using ih

theorem put_put : (d.put name m).put name n = d.put name n := by
  induction d with
  | nil => simp [put]
  | cons e rest ih =>
    obtain ⟨own, old⟩ := e
    by_cases h : own = name
    · simp [put, h]
    · simpa [put, h] using ih

theorem mem_of_get? (h : d.get? name = some n) : (name, n) ∈ d := by
  obtain ⟨l₁, l₂, rfl, -⟩ := List.lookup_eq_some_iff.1 h
  exact List.mem_append_right _ List.mem_cons_self

/-- Nothing changes if a name stands for what it stood for. -/
theorem put_self (h : d.get? name = some n) : d.put name n = d := by
  induction d with
  | nil => cases h
  | cons e rest ih =>
    obtain ⟨own, old⟩ := e
    by_cases hown : own = name
    · subst hown
      rw [get?, List.lookup_cons_self] at h
      rw [put, if_pos rfl, Option.some.inj h]
    · rw [get?, List.lookup_cons, beq_false_of_ne (Ne.symm hown)] at h
      rw [put, if_neg hown, ih h]

/-- A new name goes behind the others. -/
theorem put_of_new (h : d.get? name = none) : d.put name n = d ++ [(name, n)] := by
  induction d with
  | nil => rfl
  | cons e rest ih =>
    obtain ⟨own, old⟩ := e
    have hne : own ≠ name := by
      rintro rfl
      simp [get?] at h
    have hrest : Directory.get? rest name = none := by
      rwa [get?, List.lookup_cons, beq_false_of_ne (Ne.symm hne)] at h
    rw [put, if_neg hne, ih hrest, List.cons_append]

end Directory

/-! ## Trees -/

namespace Node

variable {a b c n old new : Node} {es fs : Directory} {p q place : List String} {name : String}

theorem get?_append : n.get? (p ++ q) = (n.get? p).bind fun m => m.get? q := by
  induction p generalizing n with
  | nil => rfl
  | cons name rest ih =>
    cases n with
    | file bytes => rfl
    | dir es =>
      rw [List.cons_append, get?, get?]
      cases Directory.get? es name with
      | none => rfl
      | some m => exact ih

/-- A step on the way to the place where something is put. -/
theorem put_cons (h : Directory.get? es name = some n) :
    (Node.dir es).put (name :: p) new = .dir (Directory.put name (n.put p new) es) := by
  cases p with
  | nil => cases n <;> rfl
  | cons m p =>
    rw [put, h]
    exact List.cons_ne_nil m p

theorem get?_put (h : n.get? place = some old) : (n.put place new).get? place = some new := by
  induction place generalizing n with
  | nil => cases n <;> rfl
  | cons name rest ih =>
    cases n with
    | file bytes => cases h
    | dir es =>
      obtain ⟨m, hm, h⟩ := Option.bind_eq_some_iff.1 h
      rw [put_cons hm, get?, Directory.get?_put_self]
      exact ih h

/-- Nothing changes if what is put into a tree was there. -/
theorem put_self (h : n.get? place = some old) : n.put place old = n := by
  induction place generalizing n with
  | nil =>
    cases h
    cases old <;> rfl
  | cons name rest ih =>
    cases n with
    | file bytes => cases h
    | dir es =>
      obtain ⟨m, hm, hrest⟩ := Option.bind_eq_some_iff.1 h
      rw [put_cons hm, ih hrest, Directory.put_self hm]

/-- Something else with a name in the directory that some names lead to. -/
theorem put_concat (h : n.get? place = some (.dir es)) :
    n.put (place ++ [name]) new = n.put place (.dir (Directory.put name new es)) := by
  induction place generalizing n with
  | nil =>
    cases h
    rfl
  | cons top rest ih =>
    cases n with
    | file bytes => cases h
    | dir fs =>
      obtain ⟨m, hm, hrest⟩ := Option.bind_eq_some_iff.1 h
      rw [List.cons_append, put_cons hm, put_cons hm, ih hrest]

theorem get?_put_concat (h : n.get? place = some (.dir es)) :
    (n.put (place ++ [name]) new).get? (place ++ [name]) = some new := by
  rw [put_concat h, get?_append, get?_put h]
  simp [get?, Directory.get?_put_self]

/-- What is below a directory has a name in it. -/
theorem isSome_of_get?_concat (h : n.get? place = some (.dir es)) (hnew : n.get? (place ++ [name]) = some new) :
    (Directory.get? es name).isSome := by
  rw [get?_append, h] at hnew
  cases hget : Directory.get? es name with
  | none => simp [get?, hget] at hnew
  | some m => rfl

/-- The first tree is a part of the second one: its files are as they were, and its directories have all their
names. -/
structure Within (a b : Node) : Prop where
  files : ∀ p bytes, a.get? p = some (.file bytes) → b.get? p = some (.file bytes)
  dirs : ∀ p es, a.get? p = some (.dir es) →
    ∃ fs, b.get? p = some (.dir fs) ∧ ∀ name, (Directory.get? es name).isSome → (Directory.get? fs name).isSome

theorem Within.refl (a : Node) : a.Within a := ⟨fun _ _ => id, fun _ es h => ⟨es, h, fun _ => id⟩⟩

theorem Within.trans (hab : a.Within b) (hbc : b.Within c) : a.Within c := by
  refine ⟨fun p bytes h => hbc.files p bytes (hab.files p bytes h), fun p es h => ?_⟩
  obtain ⟨fs, hfs, hnames⟩ := hab.dirs p es h
  obtain ⟨gs, hgs, hmore⟩ := hbc.dirs p fs hfs
  exact ⟨gs, hgs, fun name hname => hmore name (hnames name hname)⟩

/-- A directory gains names, and what its names stand for gains names. -/
theorem within_dir (h : ∀ name m, Directory.get? es name = some m →
    ∃ m', Directory.get? fs name = some m' ∧ m.Within m') : (Node.dir es).Within (.dir fs) := by
  constructor
  · intro p bytes hp
    cases p with
    | nil => cases hp
    | cons name rest =>
      obtain ⟨m, hm, hp⟩ := Option.bind_eq_some_iff.1 hp
      obtain ⟨m', hm', hwithin⟩ := h name m hm
      rw [get?, hm']
      exact hwithin.files rest bytes hp
  · intro p gs hp
    cases p with
    | nil =>
      cases hp
      refine ⟨fs, rfl, fun name hname => ?_⟩
      obtain ⟨m, hm⟩ := Option.isSome_iff_exists.1 hname
      obtain ⟨m', hm', -⟩ := h name m hm
      rw [hm']
      rfl
    | cons name rest =>
      obtain ⟨m, hm, hp⟩ := Option.bind_eq_some_iff.1 hp
      obtain ⟨m', hm', hwithin⟩ := h name m hm
      obtain ⟨ks, hks, hnames⟩ := hwithin.dirs rest gs hp
      exact ⟨ks, by rw [get?, hm']; exact hks, hnames⟩

/-- A directory gains a name. -/
theorem within_put (h : Directory.get? es name = none) : (Node.dir es).Within (.dir (Directory.put name new es)) := by
  refine within_dir fun other m hm => ⟨m, ?_, .refl m⟩
  have hne : other ≠ name := by
    rintro rfl
    rw [h] at hm
    cases hm
  rw [Directory.get?_put_of_ne hne, hm]

/-- A tree gains names where a directory in it does. -/
theorem Within.put (h : n.get? place = some old) (hnew : old.Within new) : n.Within (n.put place new) := by
  induction place generalizing n with
  | nil =>
    cases h
    cases old <;> exact hnew
  | cons name rest ih =>
    cases n with
    | file bytes => cases h
    | dir es =>
      obtain ⟨m, hm, hrest⟩ := Option.bind_eq_some_iff.1 h
      rw [put_cons hm]
      refine within_dir fun other m' hm' => ?_
      by_cases ho : other = name
      · subst ho
        cases hm.symm.trans hm'
        exact ⟨_, Directory.get?_put_self, ih hrest⟩
      · exact ⟨m', (Directory.get?_put_of_ne ho).trans hm', .refl m'⟩

end Node

/-! ## Paths -/

namespace Disk

variable {top top' : Node} {start place : List String} {names more : List String}

theorem follow_append (h : follow top start names = .ok place) :
    follow top start (names ++ more) = follow top place more := by
  induction names generalizing start with
  | nil =>
    cases h
    rfl
  | cons name rest ih =>
    rw [List.cons_append]
    rw [follow] at h ⊢
    split at h
    · split at h
      next hup => rw [if_pos hup]; exact ih h
      next hup =>
      rw [if_neg hup]
      split at h
      · cases h
      next hlong =>
      rw [if_neg hlong]
      split at h
      next hname => rw [if_pos hname]; exact ih h
      · cases h
    · cases h

/-- A path leads through a tree that gained names to where it led before. -/
theorem follow_of_within (hw : top.Within top') (h : follow top start names = .ok place) :
    follow top' start names = .ok place := by
  induction names generalizing start with
  | nil => exact h
  | cons name rest ih =>
    unfold follow at h ⊢
    split at h
    next es hes =>
      obtain ⟨fs, hfs, hnames⟩ := hw.dirs _ es hes
      simp only [hfs]
      split at h
      next hup => rw [if_pos hup]; exact ih h
      next hup =>
      rw [if_neg hup]
      split at h
      · cases h
      next hlong =>
      rw [if_neg hlong]
      split at h
      next hname => rw [if_pos (hnames name hname)]; exact ih h
      · cases h
    · cases h

/-- No character of a text has more than four bytes. -/
theorem width_ofList_le (cs : List Char) : width (String.ofList cs) ≤ 4 * cs.length := by
  induction cs with
  | nil => exact Nat.le_of_eq rfl
  | cons c cs ih =>
    have hc : c.utf8Size ≤ 4 := c.utf8Size_le_four
    have hsplit : String.ofList (c :: cs) = String.singleton c ++ String.ofList cs := by
      rw [← String.toList_inj]
      simp
    rw [width, hsplit, String.utf8ByteSize_append, String.utf8ByteSize_singleton, List.length_cons]
    rw [width] at ih
    omega

/-- One more name of a directory. -/
theorem follow_name {es : Directory} {name : String} (hes : top.get? place = some (.dir es)) (hup : name ≠ "..")
    (hshort : width name ≤ maxName) (hname : (Directory.get? es name).isSome) :
    follow top place (name :: more) = follow top (place ++ [name]) more := by
  rw [follow, hes]
  simp only
  rw [if_neg hup, if_neg (by omega), if_pos hname]

/-- A name that a directory has not. -/
theorem follow_missing {es : Directory} {name : String} (hes : top.get? place = some (.dir es)) (hup : name ≠ "..")
    (hshort : width name ≤ maxName) (hname : ¬ (Directory.get? es name).isSome) :
    follow top place (name :: more) = .error .notFound := by
  rw [follow, hes]
  simp only
  rw [if_neg hup, if_neg (by omega), if_neg hname]

/-! ## Directories on a disk -/

/-- A path leads to a directory at a place. -/
structure IsAt (d : Disk) (p : Path) (place : List String) (es : Directory) : Prop where
  located : d.locate p = .ok place
  found : d.top.get? place = some (.dir es)

section
variable {d d' : Disk} {p : Path} {es fs : Directory} {a b : String} {bytes : List UInt8}

theorem IsAt.find (h : d.IsAt p place es) : d.find p = .ok (.dir es) := by
  rw [Disk.find, h.located]
  simp only [bind, Except.bind, h.found]
  rfl

theorem isAt_of_find (h : d.find p = .ok (.dir es)) : ∃ place, d.IsAt p place es := by
  obtain ⟨place, hplace, h⟩ := bind_eq_ok.1 h
  refine ⟨place, hplace, ?_⟩
  split at h
  next n hn =>
    cases h
    exact hn
  · cases h

theorem locate_eq_ok (h : d.locate p = .ok place) :
    p.names.any (·.toList.contains '\x00') = false ∧ width p.toText ≤ maxPath ∧
      follow d.top (if p.isAbsolute then [] else d.cwd) p.names = .ok place := by
  unfold locate at h
  split at h
  · cases h
  next hnull =>
  split at h
  · cases h
  next hshort => exact ⟨Bool.eq_false_iff.2 hnull, Nat.le_of_not_lt hshort, h⟩

/-- The path still leads to the directory after it gained names. -/
theorem IsAt.put (h : d.IsAt p place es) (hw : (Node.dir es).Within (.dir fs)) :
    { d with top := d.top.put place (.dir fs) }.IsAt p place fs := by
  obtain ⟨hnull, hshort, hfollow⟩ := locate_eq_ok h.located
  refine ⟨?_, Node.get?_put h.found⟩
  rw [locate, hnull, if_neg (by decide), if_neg (by omega)]
  exact follow_of_within (.put h.found hw) hfollow

/-- What the names of a directory and of a file in it lead to. -/
def fileIn (es : Directory) (a b : String) : Except FileFault Node :=
  if maxName < width a then .error .nameTooLong
  else
    match Directory.get? es a with
    | none => .error .notFound
    | some (.file _) => .error .notDirectory
    | some (.dir files) =>
      if maxName < width b then .error .nameTooLong
      else
        match Directory.get? files b with
        | none => .error .notFound
        | some n => .ok n

theorem find_fileIn (hes : top.get? place = some (.dir es)) (ha : a ≠ "..") (hb : b ≠ "..") :
    (do match top.get? (← follow top place [a, b]) with
        | some n => return n
        | none => throw .notFound) = fileIn es a b := by
  rw [follow, hes, fileIn]
  simp only [if_neg ha]
  by_cases hlonga : maxName < width a
  · simp only [if_pos hlonga]
    rfl
  simp only [if_neg hlonga]
  cases hget : Directory.get? es a with
  | none => rfl
  | some n =>
    have hrun : top.get? (place ++ [a]) = some n := by
      rw [Node.get?_append, hes]
      simp [Node.get?, hget]
    simp only [Option.isSome_some, if_true]
    rw [follow, hrun]
    cases n with
    | file bytes => rfl
    | dir files =>
      simp only [if_neg hb]
      by_cases hlongb : maxName < width b
      · simp only [if_pos hlongb]
        rfl
      simp only [if_neg hlongb]
      cases hfile : Directory.get? files b with
      | none => rfl
      | some n =>
        have hplace : top.get? (place ++ [a] ++ [b]) = some n := by
          rw [Node.get?_append, hrun]
          simp [Node.get?, hfile]
        simp only [Option.isSome_some, if_true, follow, bind, Except.bind, hplace]
        rfl

/-- A path into a directory of a directory depends on nothing but what is in there. -/
theorem IsAt.find_file (h : d.IsAt p place es) (ha : a ≠ "..") (hb : b ≠ "..") :
    d.find ((p.child a).child b) =
      if [a, b].any (·.toList.contains '\x00') then .error .embeddedNull
      else if maxPath < width ((p.child a).child b).toText then .error .nameTooLong
      else fileIn es a b := by
  obtain ⟨hnull, -, hfollow⟩ := locate_eq_ok h.located
  have hnames : ((p.child a).child b).names = p.names ++ [a, b] := List.append_assoc ..
  have hroot : ((p.child a).child b).isAbsolute = p.isAbsolute := rfl
  rw [Disk.find, locate, hnames, hroot, List.any_append, hnull, Bool.false_or, follow_append hfollow]
  split
  · rfl
  split
  · rfl
  · exact find_fileIn h.found ha hb

/-! ## Missing directories -/

theorem makeDirs_within (top : Node) (start names : List String) : top.Within (makeDirs top start names).2 := by
  induction names generalizing top start with
  | nil =>
    unfold makeDirs
    split <;> exact .refl top
  | cons name rest ih =>
    unfold makeDirs
    split
    next es hes =>
      split
      · exact ih top _
      split
      · exact .refl top
      split
      · exact ih top _
      next hnew =>
        refine Node.Within.trans ?_ (ih _ _)
        rw [Node.put_concat hes]
        exact .put hes (Node.within_put (by simpa using hnew))
    · exact .refl top

theorem mkdirs_within (d : Disk) (p : Path) : d.top.Within (d.mkdirs p).2.top ∧ (d.mkdirs p).2.cwd = d.cwd := by
  unfold mkdirs
  split
  · exact ⟨.refl _, rfl⟩
  split
  · exact ⟨.refl _, rfl⟩
  · exact ⟨makeDirs_within .., rfl⟩

/-- Nothing is made on the way to a directory. -/
theorem makeDirs_of_follow {start : List String} (h : follow top start names = .ok place)
    (hes : top.get? place = some (.dir es)) : makeDirs top start names = (.ok (), top) := by
  induction names generalizing start with
  | nil =>
    cases h
    rw [makeDirs, hes]
  | cons name rest ih =>
    unfold follow at h
    unfold makeDirs
    split at h
    · split at h
      next hup => rw [if_pos hup]; exact ih h
      next hup =>
      rw [if_neg hup]
      split at h
      · cases h
      next hlong =>
      rw [if_neg hlong]
      split at h
      next hname => rw [if_pos hname]; exact ih h
      · cases h
    · cases h

theorem IsAt.mkdirs (h : d.IsAt p place es) : d.mkdirs p = (.ok (), d) := by
  obtain ⟨hnull, hshort, hfollow⟩ := locate_eq_ok h.located
  rw [Disk.mkdirs, hnull, if_neg (by decide), if_neg (by omega), makeDirs_of_follow hfollow h.found]
  rfl

/-- No names lead on from an empty directory, unless a path goes back. -/
theorem eq_nil_of_follow_empty (hes : top.get? start = some (.dir [])) (hup : ".." ∉ names)
    (h : follow top start names = .ok place) : names = [] := by
  cases names with
  | nil => rfl
  | cons name rest =>
    unfold follow at h
    rw [hes] at h
    simp only [if_neg (Ne.symm (List.ne_of_not_mem_cons hup))] at h
    split at h <;> cases h

/-- Directories that are made below a directory are empty, unless a path goes back. -/
theorem follow_of_makeDirs {top' : Node} (hup : ".." ∉ names) (h : makeDirs top start names = (.ok (), top')) :
    ∃ place es, follow top' start names = .ok place ∧ top'.get? place = some (.dir es) ∧
      (top' = top ∨ follow top start names = .error .notFound ∧ es = []) := by
  induction names generalizing top start with
  | nil =>
    unfold makeDirs at h
    split at h
    next es hes =>
      cases h
      exact ⟨start, es, rfl, hes, .inl rfl⟩
    · cases h
  | cons name rest ih =>
    have hwithin : top.Within top' := by simpa [h] using makeDirs_within top start (name :: rest)
    obtain ⟨hne, hrest⟩ := List.ne_and_not_mem_of_not_mem_cons hup
    unfold makeDirs at h
    split at h
    next es hes =>
      obtain ⟨fs, hfs, hmore⟩ := hwithin.dirs start es hes
      rw [if_neg (Ne.symm hne)] at h
      split at h
      · cases h
      next hshort =>
      split at h
      next hname =>
        obtain ⟨place, gs, hplace, hgs, hkept⟩ := ih hrest h
        refine ⟨place, gs, ?_, hgs, ?_⟩
        · rw [follow_name hfs (Ne.symm hne) (by omega) (hmore name hname), hplace]
        · rw [follow_name hes (Ne.symm hne) (by omega) hname]
          exact hkept
      next hnew =>
        have hmade : (top.put (start ++ [name]) (.dir [])).get? (start ++ [name]) = some (.dir []) :=
          Node.get?_put_concat hes
        obtain ⟨place, gs, hplace, hgs, hkept⟩ := ih hrest h
        have hname : (Directory.get? fs name).isSome := by
          obtain ⟨ks, hks, -⟩ := (makeDirs_within _ (start ++ [name]) rest).dirs _ _ hmade
          rw [h] at hks
          exact Node.isSome_of_get?_concat hfs hks
        refine ⟨place, gs, ?_, hgs, .inr ⟨follow_missing hes (Ne.symm hne) (by omega) hnew, ?_⟩⟩
        · rw [follow_name hfs (Ne.symm hne) (by omega) hname, hplace]
        · -- Nothing is below the directory that was made, so that the names end there or more is made.
          obtain rfl | ⟨-, hempty⟩ := hkept
          · obtain rfl := eq_nil_of_follow_empty hmade hrest hplace
            cases hplace
            cases hmade.symm.trans hgs
            rfl
          · exact hempty
    · cases h

/-- The directory that a path leads to after its missing directories were made: none was missing, or there is
nothing in it. -/
theorem isAt_of_mkdirs (hup : ".." ∉ p.names) (h : d.mkdirs p = (.ok (), d')) :
    ∃ place es, d'.IsAt p place es ∧ (d' = d ∨ d.find? p = .ok none ∧ es = []) := by
  unfold mkdirs at h
  split at h
  · cases h
  next hnull =>
  split at h
  · cases h
  next hshort =>
  obtain ⟨r, top', hmade⟩ : ∃ r top', makeDirs d.top (if p.isAbsolute then [] else d.cwd) p.names = (r, top') :=
    ⟨_, _, rfl⟩
  rw [hmade] at h
  obtain ⟨hr, rfl⟩ := Prod.mk.inj h
  cases r with
  | error e => cases hr
  | ok u =>
    obtain ⟨place, es, hplace, hes, hkept⟩ := follow_of_makeDirs hup hmade
    refine ⟨place, es, ⟨?_, hes⟩, ?_⟩
    · rw [locate, if_neg hnull, if_neg hshort]
      exact hplace
    · refine hkept.imp (fun htop => by rw [htop]) fun ⟨hmissing, hempty⟩ => ⟨?_, hempty⟩
      have hlocate : d.locate p = .error .notFound := by
        rw [locate, if_neg hnull, if_neg hshort]
        exact hmissing
      rw [find?, Disk.find, hlocate]
      rfl

/-! ## What is read -/

theorem readBytes_eq_ok : d.readBytes p = .ok bytes ↔ d.find p = .ok (.file bytes) := by
  unfold readBytes
  constructor
  · intro h
    split at h
    next hfind =>
      cases h
      exact hfind
    all_goals cases h
  · intro h
    rw [h]

theorem isFile_eq_true : d.isFile p = .ok true ↔ ∃ bytes, d.find p = .ok (.file bytes) := by
  unfold isFile find?
  rcases d.find p with e | n
  · cases e <;> simp [bind, Except.bind, pure, Except.pure]
  · cases n <;> simp [bind, Except.bind, pure, Except.pure, Node.isFile]

/-- A file of a disk is a file of every disk that has more files. -/
theorem find_of_within (hw : d.top.Within d'.top) (hcwd : d'.cwd = d.cwd) (h : d.find p = .ok (.file bytes)) :
    d'.find p = .ok (.file bytes) := by
  obtain ⟨place, hplace, h⟩ := bind_eq_ok.1 h
  split at h
  next n hn =>
    cases h
    obtain ⟨hnull, hshort, hfollow⟩ := locate_eq_ok hplace
    have hplace' : d'.locate p = .ok place := by
      rw [locate, hnull, if_neg (by decide), if_neg (by omega), hcwd]
      exact follow_of_within hw hfollow
    rw [Disk.find, hplace']
    simp only [bind, Except.bind, hw.files place bytes hn]
    rfl
  · cases h

end

end Disk

end Assay
