import Assay.Environment
import Assay.Proofs.DiskPlaces
import Assay.Proofs.FileText
import Assay.Proofs.TextParts

/-!
# What the lines of the environment file assign

A line of the file is blank, a comment, or an assignment (`Line`). The value of an assignment stands between quotes or
is bare, and a remark may follow a bare value. A value is read back whatever it holds and whatever remark follows it
(`valueOf_quoted`, `valueOf_bare`), with one exception: trimming takes the blanks between an empty value and a remark
away, without which the remark is taken for the value (`valueOf_remark`). In the order of the lines, the first one that
assigns a value to a name decides, unless the variable is set already (`addFile_reads`).
-/

namespace Assay.Environment

/-- A line of the file: blank, a comment, or the assignment of a bare value, which a remark behind some blanks may
follow, or of a value between quotes. -/
inductive Line where
  | blank (blanks : String)
  | comment (text : String)
  | bare (exported : Bool) (name value : String) (remark : Option (String × String))
  | quoted (exported : Bool) (name : String) (quote : Char) (value : String)
  deriving Repr, DecidableEq

namespace Line

/-- What stands before a name. -/
def lead : Bool → List Char
  | true => exportWord
  | false => []

/-- What stands behind a bare value. -/
def remarkText : Option (String × String) → List Char
  | some (blanks, text) => blanks.toList ++ '#' :: text.toList
  | none => []

/-- The characters of a line. -/
def text : Line → List Char
  | blank blanks => blanks.toList
  | comment text => '#' :: text.toList
  | bare exported name value remark => lead exported ++ (name.toList ++ '=' :: (value.toList ++ remarkText remark))
  | quoted exported name quote value => lead exported ++ (name.toList ++ '=' :: quote :: (value.toList ++ [quote]))

/-- The name to which a line assigns a value. -/
def name? : Line → Option String
  | bare _ name _ _ => some name
  | quoted _ name _ _ => some name
  | _ => none

/-- Some text without blanks, quotes and the signs that have a meaning on a line. -/
structure IsName (name : String) : Prop where
  ne : name ≠ ""
  plain : ∀ c ∈ name.toList, c ≠ '=' ∧ c ≠ '#' ∧ c ≠ '"' ∧ c ≠ '\'' ∧ Text.isBlank c = false

/-- Text that may be empty, without quotes and number signs, and without blanks at its ends. -/
structure IsBare (value : String) : Prop where
  trimmed : Text.strip value = value
  plain : ∀ c ∈ value.toList, c ≠ '#' ∧ c ≠ '"' ∧ c ≠ '\''

/-- The parts of a line are of the kinds that they stand for. -/
def IsPlain : Line → Prop
  | blank blanks => Text.isAllBlank blanks.toList = true
  | comment _ => True
  | bare _ name value remark => IsName name ∧ IsBare value ∧
      ∀ r ∈ remark, r.1 ≠ "" ∧ Text.isAllBlank r.1.toList = true
  | quoted _ name quote _ => IsName name ∧ (quote = '"' ∨ quote = '\'')

/-- A line of plain parts, without a line end or the null character in it. -/
structure IsWritten (l : Line) : Prop where
  plain : l.IsPlain
  oneLine : ∀ c ∈ l.text, Text.isLineEnd c = false
  noNull : '\x00' ∉ l.text

/-- What is read from a line: its value, but the beginning of the remark if that follows an empty value. -/
inductive Reads : Line → String → String → Prop
  | bare {exported : Bool} {name value : String} {remark : Option (String × String)} :
      (value = "" → remark = none) → Reads (.bare exported name value remark) name value
  | quoted {exported : Bool} {name value : String} {quote : Char} : Reads (.quoted exported name quote value) name value
  | remark {exported : Bool} {name blanks text : String} {shown : List Char} : shown <+: text.toList →
      Reads (.bare exported name "" (some (blanks, text))) name (String.ofList ('#' :: shown))

end Line

/-! ## Values -/

section
variable {cs value blanks text rest : List Char} {q : Char}

theorem unquoted?_eq_none (h : ∀ c, cs.head? = some c → c ≠ '"' ∧ c ≠ '\'') : unquoted? cs = none := by
  cases cs with
  | nil => rfl
  | cons c cs =>
    obtain ⟨hdouble, hsingle⟩ := h c rfl
    simp [unquoted?, hdouble, hsingle]

theorem trimChar_eq_self (h : q ∉ cs) : trimChar q cs = cs := by
  have hne : ∀ c ∈ cs, (c == q) = false := fun c hc => beq_eq_false_iff_ne.2 fun e => h (e ▸ hc)
  have hstart : cs.dropWhile (· == q) = cs :=
    Text.dropWhile_eq_self_iff.2 fun c hc => hne c (List.mem_of_head? hc)
  rw [trimChar, hstart]
  exact Text.dropEnd_eq_self_iff.2 fun c hc => hne c (List.mem_of_getLast? hc)

/-- A text between equal quotes is taken as it stands. -/
theorem valueOf_quoted (hq : q = '"' ∨ q = '\'') : valueOf (q :: (value ++ [q])) = value := by
  have hblank : Text.isBlank q = false := by rcases hq with rfl | rfl <;> decide
  have htrim : Text.trim (q :: (value ++ [q])) = q :: (value ++ [q]) := by
    refine Text.trim_eq_self_iff.2 ⟨Text.trimStart_eq_self_iff.2 fun c hc => ?_,
      Text.trimEnd_eq_self_iff.2 fun c hc => ?_⟩
    · rwa [← Option.some.inj hc]
    · rw [List.getLast?_cons, List.getLast?_concat] at hc
      rwa [← Option.some.inj hc]
  simp [valueOf, htrim, unquoted?, hq]

/-- No comment starts in a text without a number sign, if what follows does not stand behind a blank of it. -/
theorem beforeComment_append (hplain : '#' ∉ value) (hlast : ∀ c, value.getLast? = some c → Text.isBlank c = false) :
    beforeComment (value ++ rest) = value ++ beforeComment rest := by
  induction value with
  | nil => rfl
  | cons c value ih =>
    have hmore : ¬ (Text.isBlank c && ((value ++ rest).dropWhile Text.isBlank).head? == some '#') = true := by
      rw [Bool.and_eq_true, beq_iff_eq]
      rintro ⟨hc, hsign⟩
      -- Behind a blank of the value stands another character of it that is not blank.
      cases hdrop : value.dropWhile Text.isBlank with
      | nil =>
        have hall : ∀ d ∈ c :: value, Text.isBlank d = true :=
          List.forall_mem_cons.2 ⟨hc, List.dropWhile_eq_nil_iff.1 hdrop⟩
        have hend := hlast _ (List.getLast?_eq_some_getLast (List.cons_ne_nil c value))
        rw [hall _ (List.getLast_mem _)] at hend
        cases hend
      | cons d ds =>
        rw [List.dropWhile_append, hdrop] at hsign
        have hd : d ∈ value := (List.dropWhile_suffix _).subset (hdrop ▸ List.mem_cons_self)
        have : d = '#' := by simpa using hsign
        exact hplain (List.mem_cons_of_mem _ (this ▸ hd))
    have hlast' : ∀ d, value.getLast? = some d → Text.isBlank d = false := fun d hd => hlast d <| by
      rw [List.getLast?_cons, hd]
      rfl
    rw [List.cons_append, beforeComment, if_neg hmore, ih (fun h => hplain (List.mem_cons_of_mem _ h)) hlast',
      List.cons_append]

/-- A comment starts at the blanks before its number sign. -/
theorem beforeComment_remark (hne : blanks ≠ []) (hblank : ∀ c ∈ blanks, Text.isBlank c = true) :
    beforeComment (blanks ++ '#' :: text) = [] := by
  obtain ⟨b, bs, rfl⟩ := List.exists_cons_of_ne_nil hne
  obtain ⟨hb, hbs⟩ := List.forall_mem_cons.1 hblank
  have hsign : (bs ++ '#' :: text).dropWhile Text.isBlank = '#' :: text := by
    rw [List.dropWhile_append_of_pos hbs]
    rfl
  rw [List.cons_append, beforeComment, hb, hsign]
  rfl

theorem prefix_beforeComment : ∀ cs, beforeComment cs <+: cs
  | [] => List.prefix_rfl
  | c :: cs => by
    rw [beforeComment]
    split
    · exact List.nil_prefix
    · exact List.cons_prefix_cons.2 ⟨rfl, prefix_beforeComment cs⟩

/-- A bare value is read back, without what follows it, if that is nothing or a comment. -/
theorem valueOf_append (hplain : ∀ c ∈ value, c ≠ '#' ∧ c ≠ '"' ∧ c ≠ '\'') (htrim : Text.trim value = value)
    (hrest : Text.trim (value ++ rest) = value ++ cs) (hcomment : beforeComment cs = [])
    (hne : value = [] → cs = []) : valueOf (value ++ rest) = value := by
  have hnone : unquoted? (value ++ cs) = none := by
    refine unquoted?_eq_none fun c hc => ?_
    cases value with
    | nil => rw [hne rfl] at hc; cases hc
    | cons d value => exact Option.some.inj hc ▸ (hplain d List.mem_cons_self).2
  have hlast := Text.trimEnd_eq_self_iff.1 (Text.trim_eq_self_iff.1 htrim).2
  have hbefore : beforeComment (value ++ cs) = value := by
    rw [beforeComment_append (fun h => (hplain _ h).1 rfl) hlast, hcomment, List.append_nil]
  simp only [valueOf, hrest, hnone, hbefore, htrim]
  rw [trimChar_eq_self fun h => (hplain _ h).2.1 rfl, trimChar_eq_self fun h => (hplain _ h).2.2 rfl]

/-- A bare value is read back, whatever remark follows it, unless it is empty and a remark follows. -/
theorem valueOf_bare {value : String} {remark : Option (String × String)} (h : Line.IsBare value)
    (hremark : ∀ r ∈ remark, r.1 ≠ "" ∧ Text.isAllBlank r.1.toList = true) (hne : value = "" → remark = none) :
    valueOf (value.toList ++ Line.remarkText remark) = value.toList := by
  have htrim : Text.trim value.toList = value.toList := by
    have htrimmed := congrArg String.toList h.trimmed
    rwa [Text.strip, String.toList_ofList] at htrimmed
  cases remark with
  | none =>
    have hrest : Text.trim (value.toList ++ []) = value.toList ++ [] := by rwa [List.append_nil]
    exact valueOf_append h.plain htrim hrest rfl fun _ => rfl
  | some r =>
    obtain ⟨blanks, text⟩ := r
    obtain ⟨hblanks, hblank⟩ := hremark _ rfl
    have hvalue : value.toList ≠ [] := fun hnil => nomatch hne (String.toList_inj.1 hnil)
    have hstart : Text.trimStart (value.toList ++ (blanks.toList ++ '#' :: text.toList)) =
        value.toList ++ (blanks.toList ++ '#' :: text.toList) :=
      Text.trimStart_append hvalue (Text.trim_eq_self_iff.1 htrim).1
    have hrest : Text.trim (value.toList ++ (blanks.toList ++ '#' :: text.toList)) =
        value.toList ++ (blanks.toList ++ '#' :: Text.trimEnd text.toList) := by
      rw [Text.trim, hstart, ← List.append_assoc, Text.trimEnd_append_cons (by decide), List.append_assoc]
    refine valueOf_append h.plain htrim hrest (beforeComment_remark ?_ (List.all_eq_true.1 hblank)) fun hnil =>
      absurd hnil hvalue
    exact fun hnil => hblanks (String.toList_inj.1 hnil)

/-- Of an empty value before a remark the beginning of the remark is read. -/
theorem valueOf_remark (text : List Char) (hblank : ∀ c ∈ blanks, Text.isBlank c = true) :
    ∃ shown, valueOf (blanks ++ '#' :: text) = '#' :: shown ∧ shown <+: text := by
  have htrim : ∀ cs, Text.trim ('#' :: cs) = '#' :: Text.trimEnd cs := fun cs => Text.trim_cons (by decide)
  have hchar : ∀ {q : Char} (cs : List Char), q ≠ '#' →
      trimChar q ('#' :: cs) = '#' :: Text.dropEnd (· == q) cs := fun {q} cs hq => by
    have hstay : ('#' == q) = false := beq_eq_false_iff_ne.2 hq.symm
    rw [trimChar, List.dropWhile_cons_of_neg (by simp [hstay])]
    exact Text.dropEnd_cons hstay
  have hbefore : ∀ cs, beforeComment ('#' :: cs) = '#' :: beforeComment cs := fun cs => by
    rw [beforeComment]
    rfl
  have hall : Text.trim (blanks ++ '#' :: text) = '#' :: Text.trimEnd text := by
    rw [← htrim, Text.trim, Text.trimStart, List.dropWhile_append_of_pos hblank]
    rfl
  have hnone : unquoted? ('#' :: Text.trimEnd text) = none :=
    unquoted?_eq_none fun c hc => by
      rw [← Option.some.inj hc]
      decide
  simp only [valueOf, hall, hnone, hbefore, htrim, hchar _ (by decide : '"' ≠ '#'), hchar _ (by decide : '\'' ≠ '#')]
  refine ⟨_, rfl, ?_⟩
  exact ((Text.prefix_dropEnd _ _).trans (Text.prefix_dropEnd _ _)).trans
    ((Text.prefix_dropEnd _ _).trans ((prefix_beforeComment _).trans (Text.prefix_dropEnd _ _)))

end

/-! ## Lines -/

namespace Line

section
variable {name value : String} {rest : List Char} {l : Line}

theorem IsName.toList_ne (h : IsName name) : name.toList ≠ [] := fun hnil => h.ne (String.toList_inj.1 hnil)

theorem IsName.trim_eq (h : IsName name) : Text.trim name.toList = name.toList :=
  Text.trim_eq_self_iff.2
    ⟨Text.trimStart_eq_self_iff.2 fun c hc => (h.plain c (List.mem_of_head? hc)).2.2.2.2,
      Text.trimEnd_eq_self_iff.2 fun c hc => (h.plain c (List.mem_of_getLast? hc)).2.2.2.2⟩

/-- The word before an assignment holds a blank, and a name holds none. -/
theorem IsName.not_exportWord (h : IsName name) : ¬ exportWord <+: name.toList ++ '=' :: rest := by
  intro hword
  have hname : name.toList ++ ['='] <+: name.toList ++ '=' :: rest := by
    rw [List.prefix_append_right_inj, List.cons_prefix_cons]
    exact ⟨rfl, List.nil_prefix⟩
  rcases List.prefix_or_prefix_of_prefix hword hname with hprefix | hprefix
  · have hmem : ' ' ∈ name.toList ++ ['='] := hprefix.subset (by decide)
    rcases List.mem_append.1 hmem with hmem | hmem
    · exact absurd (h.plain _ hmem).2.2.2.2 (by decide)
    · exact absurd (List.mem_singleton.1 hmem) (by decide)
  · have hmem : '=' ∈ exportWord := hprefix.subset (by simp)
    exact absurd hmem (by decide)

theorem dropExport_lead (h : IsName name) (exported : Bool) :
    dropExport (lead exported ++ (name.toList ++ '=' :: rest)) = name.toList ++ '=' :: rest := by
  cases exported with
  | true =>
    have hprefix : exportWord.isPrefixOf (exportWord ++ (name.toList ++ '=' :: rest)) = true :=
      List.isPrefixOf_iff_prefix.2 (List.prefix_append _ _)
    rw [lead, dropExport, if_pos hprefix, List.drop_left, Text.trimStart_append h.toList_ne (Text.trim_eq_self_iff.1 h.trim_eq).1]
  | false =>
    rw [lead, List.nil_append, dropExport, if_neg]
    exact fun hprefix => h.not_exportWord (List.isPrefixOf_iff_prefix.1 hprefix)

/-- A line of a name, an equals sign and something else assigns to the name the value of that. -/
theorem assignment?_name (h : IsName name) (exported : Bool) :
    assignment? (lead exported ++ (name.toList ++ '=' :: rest)) = some (name, String.ofList (valueOf rest)) := by
  have hhead : ∀ rest, ∀ c, (lead exported ++ (name.toList ++ '=' :: rest)).head? = some c →
      Text.isBlank c = false ∧ c ≠ '#' := by
    intro rest c hc
    cases exported with
    | true =>
      rw [lead, List.head?_append_of_ne_nil _ (by decide)] at hc
      rw [← Option.some.inj hc]
      decide
    | false =>
      rw [lead, List.nil_append, List.head?_append_of_ne_nil _ h.toList_ne] at hc
      obtain ⟨-, hsign, -, -, hblank⟩ := h.plain c (List.mem_of_head? hc)
      exact ⟨hblank, hsign⟩
  have htrim : Text.trim (lead exported ++ (name.toList ++ '=' :: rest)) =
      lead exported ++ (name.toList ++ '=' :: Text.trimEnd rest) := by
    rw [Text.trim, Text.trimStart_eq_self_iff.2 fun c hc => (hhead rest c hc).1, ← List.append_assoc,
      Text.trimEnd_append_cons (by decide), List.append_assoc]
  have hspan : (name.toList ++ '=' :: Text.trimEnd rest).span (· != '=') = (name.toList, '=' :: Text.trimEnd rest) :=
    Text.span_append (fun c hc => bne_iff_ne.2 (h.plain c hc).1) fun c hc => by simpa using Option.some.inj hc.symm
  rw [List.span_eq_takeWhile_dropWhile, Prod.mk.injEq] at hspan
  have hassigns : ¬ ((lead exported ++ (name.toList ++ '=' :: Text.trimEnd rest)).head? = some '#' ∨
      '=' ∉ lead exported ++ (name.toList ++ '=' :: Text.trimEnd rest)) := by
    rintro (hsign | hmissing)
    · exact (hhead _ _ hsign).2 rfl
    · exact hmissing (by simp)
  have hvalue : valueOf (Text.trimEnd rest) = valueOf rest := by rw [valueOf, Text.trim_trimEnd, ← valueOf]
  have hname : name.toList.isEmpty = false := List.isEmpty_eq_false_iff.2 h.toList_ne
  simp only [assignment?, htrim, if_neg hassigns, dropExport_lead h, hspan, h.trim_eq, hname, List.drop_one,
    List.tail_cons, hvalue, String.ofList_toList]
  rfl

/-- A line assigns what is read from it, and nothing if it is blank or a comment. -/
theorem assignment?_text (h : l.IsPlain) :
    (l.name? = none ∧ assignment? l.text = none) ∨
      ∃ name value, l.name? = some name ∧ assignment? l.text = some (name, value) ∧ l.Reads name value := by
  cases l with
  | blank blanks =>
    have hall : ∀ c ∈ blanks.toList, Text.isBlank c = true := List.all_eq_true.1 h
    have htrim : Text.trim blanks.toList = [] := by
      rw [Text.trim, Text.trimStart, List.dropWhile_eq_nil_iff.2 hall]
      rfl
    exact .inl ⟨rfl, by simp [assignment?, text, htrim]⟩
  | comment remark =>
    have htrim : Text.trim ('#' :: remark.toList) = '#' :: Text.trimEnd remark.toList := Text.trim_cons (by decide)
    exact .inl ⟨rfl, by simp [assignment?, text, htrim]⟩
  | bare exported name value remark =>
    obtain ⟨hname, hvalue, hremark⟩ := h
    refine .inr ⟨name, _, rfl, assignment?_name hname exported, ?_⟩
    by_cases hlost : value = "" ∧ remark ≠ none
    · obtain ⟨rfl, hsome⟩ := hlost
      obtain ⟨⟨blanks, text⟩, rfl⟩ := Option.ne_none_iff_exists'.1 hsome
      have hblank : ∀ c ∈ blanks.toList, Text.isBlank c = true := List.all_eq_true.1 (hremark _ rfl).2
      obtain ⟨shown, hshown, hprefix⟩ := valueOf_remark text.toList hblank
      rw [remarkText, String.toList_empty, List.nil_append, hshown]
      exact .remark hprefix
    · have hnone : value = "" → remark = none := fun he => not_not.1 fun hsome => hlost ⟨he, hsome⟩
      rw [valueOf_bare hvalue hremark hnone, String.ofList_toList]
      exact .bare hnone
  | quoted exported name quote value =>
    obtain ⟨hname, hquote⟩ := h
    refine .inr ⟨name, _, rfl, assignment?_name hname exported, ?_⟩
    rw [valueOf_quoted hquote, String.ofList_toList]
    exact .quoted

theorem Reads.eq_value {exported : Bool} {other : String} {remark : Option (String × String)} {read : String}
    (h : (Line.bare exported other value remark).Reads name read) (hne : value ≠ "") : read = value := by
  cases h with
  | bare => rfl
  | remark => exact absurd rfl hne

/-- Names and values are parts of a line. -/
theorem Reads.mem_text (h : l.Reads name value) {c : Char} (hc : c ∈ (name ++ value).toList) : c ∈ l.text := by
  rw [String.toList_append, List.mem_append] at hc
  cases h with
  | bare => rcases hc with hc | hc <;> simp [text, hc]
  | quoted => rcases hc with hc | hc <;> simp [text, hc]
  | remark hprefix =>
    rcases hc with hc | hc
    · simp [text, hc]
    · rw [String.toList_ofList, List.mem_cons] at hc
      rcases hc with rfl | hc
      · simp [text, remarkText]
      · simp [text, remarkText, hprefix.subset hc]

end

end Line

/-! ## The file -/

section
variable {env : Environment} {name value key : String} {as : List (String × String)} {lines : List Line} {d : Disk}
  {p : Path}

theorem get?_setDefault (h : env.get? name = none) :
    (env.setDefault name value).get? key = (env.get? key).or (if key = name then some value else none) := by
  have hnew : (env.get? name).isSome = false := by rw [h]; rfl
  have hlookup : List.lookup key [(name, value)] = if key = name then some value else none := by
    rw [List.lookup_cons, List.lookup_nil]
    by_cases hkey : key = name
    · simp [hkey]
    · rw [beq_eq_false_iff_ne.2 hkey, if_neg hkey]
  rw [setDefault, hnew, if_neg Bool.false_ne_true, get?, List.lookup_append, hlookup, get?]

/-- Of the assignments the first for a name counts, and none for a variable that is set. -/
theorem addAll_eq_ok (env : Environment) (h : ∀ a ∈ as, '\x00' ∉ (a.1 ++ a.2).toList) :
    ∃ env', addAll env as = .ok env' ∧ ∀ key, env'.get? key = (env.get? key).or (as.lookup key) := by
  induction as generalizing env with
  | nil => exact ⟨env, rfl, fun key => by simp⟩
  | cons a as ih =>
    obtain ⟨name, value⟩ := a
    obtain ⟨hnull, has⟩ := List.forall_mem_cons.1 h
    cases hset : env.get? name with
    | some old =>
      obtain ⟨env', hadd, hget⟩ := ih env has
      refine ⟨env', by rw [addAll, hset]; exact hadd, fun key => ?_⟩
      rw [hget, List.lookup_cons]
      by_cases hkey : key = name
      · rw [hkey, hset]
        rfl
      · rw [beq_eq_false_iff_ne.2 hkey]
    | none =>
      obtain ⟨env', hadd, hget⟩ := ih (env.setDefault name value) has
      have hplain : (name ++ value).toList.contains '\x00' = false := by simpa using hnull
      refine ⟨env', by rw [addAll, hset, hplain]; exact hadd, fun key => ?_⟩
      rw [hget, get?_setDefault hset, Option.or_assoc, List.lookup_cons]
      by_cases hkey : key = name
      · simp [hkey]
      · rw [beq_eq_false_iff_ne.2 hkey, if_neg hkey, Option.none_or]

/-- What is assigned to a name is read from the first line that assigns it a value. -/
theorem lookup_assignments (h : ∀ l ∈ lines, l.IsPlain) (name : String) :
    (lines.find? (·.name? = some name) = none ∧
      ((lines.map Line.text).filterMap assignment?).lookup name = none) ∨
    ∃ l value, lines.find? (·.name? = some name) = some l ∧ l.Reads name value ∧
      ((lines.map Line.text).filterMap assignment?).lookup name = some value := by
  induction lines with
  | nil => exact .inl ⟨rfl, rfl⟩
  | cons l lines ih =>
    obtain ⟨hl, hlines⟩ := List.forall_mem_cons.1 h
    rw [List.map_cons]
    rcases l.assignment?_text hl with ⟨hnone, hassign⟩ | ⟨other, value, hname, hassign, hreads⟩
    · rw [List.filterMap_cons_none hassign, List.find?_cons_of_neg (by simp [hnone])]
      exact ih hlines
    · rw [List.filterMap_cons_some hassign, List.lookup_cons]
      by_cases hother : name = other
      · subst hother
        refine .inr ⟨l, value, List.find?_cons_of_pos (by simp [hname]), hreads, ?_⟩
        rw [beq_self_eq_true]
      · rw [beq_eq_false_iff_ne.2 hother, List.find?_cons_of_neg (by simp [hname, Ne.symm hother])]
        exact ih hlines

/-- The lines of a file are found again, up to an empty one at the end, which assigns nothing. -/
theorem assignments_of_lines (h : ∀ l ∈ lines, ∀ c ∈ l.text, Text.isLineEnd c = false) :
    assignments (String.ofList (['\n'].intercalate (lines.map Line.text))) =
      (lines.map Line.text).filterMap assignment? := by
  obtain ⟨tail, hlines, htail⟩ := Text.lines_intercalate (List.forall_mem_map.2 h)
  have hnothing : tail.filterMap assignment? = [] := by
    refine List.filterMap_eq_nil_iff.2 fun l hl => ?_
    rw [htail l hl]
    rfl
  conv_rhs => rw [hlines, List.filterMap_append, hnothing, List.append_nil]
  rw [assignments, String.toList_ofList]

theorem addFile_of_text {text : String} (h : d.readText p = .ok text) :
    env.addFile d p = addAll env (assignments text) := by
  obtain ⟨bytes, hbytes, -⟩ := bind_eq_ok.1 h
  have hfind : d.find? p = .ok (some (.file bytes)) := by
    rw [Disk.find?, Disk.readBytes_eq_ok.1 hbytes]
  simp only [addFile, hfind, h, bind, Except.bind]

/-- **The file.** Whatever lines a file holds, each blank, a comment or an assignment, adding its variables succeeds. A
variable that is set keeps its value, any other has what is read from the first line that assigns it one, and a variable
that no line names stays unset. What is read is the value of the line, unless that is empty and a remark follows. -/
theorem addFile_reads (env : Environment)
    (hfile : d.readText p = .ok (String.ofList (['\n'].intercalate (lines.map Line.text))))
    (hlines : ∀ l ∈ lines, l.IsWritten) :
    ∃ env', env.addFile d p = .ok env' ∧ ∀ name,
      (∀ value, env.get? name = some value → env'.get? name = some value) ∧
      (env.get? name = none →
        (lines.find? (·.name? = some name) = none → env'.get? name = none) ∧
        ∀ l, lines.find? (·.name? = some name) = some l →
          ∃ value, l.Reads name value ∧ env'.get? name = some value) := by
  have hassigned := assignments_of_lines fun l hl => (hlines l hl).oneLine
  have hnull : ∀ a ∈ (lines.map Line.text).filterMap assignment?, '\x00' ∉ (a.1 ++ a.2).toList := by
    intro a ha hzero
    obtain ⟨_, hmem, ha⟩ := List.mem_filterMap.1 ha
    obtain ⟨l, hl, rfl⟩ := List.mem_map.1 hmem
    rcases l.assignment?_text (hlines l hl).plain with ⟨-, hnone⟩ | ⟨name, value, -, hsome, hreads⟩
    · rw [hnone] at ha
      cases ha
    · obtain rfl : (name, value) = a := Option.some.inj (hsome.symm.trans ha)
      exact (hlines l hl).noNull (hreads.mem_text hzero)
  obtain ⟨env', hadd, hget⟩ := addAll_eq_ok env hnull
  refine ⟨env', by rw [addFile_of_text hfile, hassigned, hadd], fun name => ⟨fun value hset => ?_, fun hunset => ?_⟩⟩
  · rw [hget, hset]
    rfl
  · rw [hget, hunset, Option.none_or]
    rcases lookup_assignments (fun l hl => (hlines l hl).plain) name with
      ⟨hnone, hlookup⟩ | ⟨l, value, hfirst, hreads, hlookup⟩
    · refine ⟨fun _ => hlookup, fun l hl => ?_⟩
      rw [hnone] at hl
      cases hl
    · refine ⟨fun hnone => ?_, fun l' hl => ?_⟩
      · rw [hfirst] at hnone
        cases hnone
      · obtain rfl : l = l' := Option.some.inj (hfirst.symm.trans hl)
        exact ⟨value, hreads, hlookup⟩

/-- A comment, an assignment with a remark, one of a value that looks like one with a remark, one to a name that has a
value already, and one to a variable that may be set. -/
def fileLines : List Line := [
  .comment " settings",
  .bare true "TOOL" "gcc -c" (some ("  ", " not \"clang\"")),
  .quoted false "NOTE" '"' "a # b",
  .bare false "TOOL" "clang" none,
  .quoted false "HOME" '\'' "/tmp"]

/-- The text of the file of these lines. -/
def fileText : String := String.ofList (['\n'].intercalate (fileLines.map Line.text))

/-- A disk that holds a text under the name of the file. -/
def diskOf (text : String) : Disk := ⟨.dir [(fileName, .file (Utf8.encode text))], []⟩

theorem readText_diskOf (text : String) (h : Text.Written true text.toList) :
    (diskOf text).readText (.ofText fileName) = .ok text := by
  have hfind : (diskOf text).find (.ofText fileName) = .ok (.file (Utf8.encode text)) := rfl
  rw [Disk.readText, Disk.readBytes_eq_ok.2 hfind]
  exact Disk.textOf_of_whole h

theorem isWritten_fileLines : ∀ l ∈ fileLines, l.IsWritten := by
  have hname : ∀ name ∈ ["TOOL", "NOTE", "HOME"], Line.IsName name := by
    intro name hname
    simp only [List.mem_cons, List.not_mem_nil, or_false] at hname
    rcases hname with rfl | rfl | rfl <;> exact ⟨by decide, by simp [Text.isBlank]⟩
  have hvalue : ∀ value ∈ ["gcc -c", "clang"], Line.IsBare value := by
    intro value hvalue
    simp only [List.mem_cons, List.not_mem_nil, or_false] at hvalue
    rcases hvalue with rfl | rfl <;> exact ⟨rfl, by simp⟩
  have hplain : ∀ l ∈ fileLines, l.IsPlain := by
    simp only [fileLines, List.forall_mem_cons, List.not_mem_nil, false_imp_iff, implies_true, and_true]
    exact ⟨trivial, ⟨hname _ (by simp), hvalue _ (by simp), by rintro r ⟨⟩; exact ⟨by decide, rfl⟩⟩,
      ⟨hname _ (by simp), .inl rfl⟩, ⟨hname _ (by simp), hvalue _ (by simp), by simp⟩, ⟨hname _ (by simp), .inr rfl⟩⟩
  have htext : (fileLines.all fun l => l.text.all fun c => !Text.isLineEnd c && c != '\x00') = true := by rfl
  intro l hl
  have hchars : ∀ c ∈ l.text, Text.isLineEnd c = false ∧ c ≠ '\x00' := by
    simpa using List.all_eq_true.1 htext l hl
  exact ⟨hplain l hl, fun c hc => (hchars c hc).1, fun hc => (hchars _ hc).2 rfl⟩

/-- What the lines assign is read, except to the variable that is set. -/
theorem addFile_reads_settings :
    (diskOf fileText).readText (.ofText fileName) = .ok fileText ∧ (∀ l ∈ fileLines, l.IsWritten) ∧
    ∃ env', addFile [("HOME", "/root")] (diskOf fileText) (.ofText fileName) = .ok env' ∧
      env'.get? "TOOL" = some "gcc -c" ∧ env'.get? "NOTE" = some "a # b" ∧ env'.get? "HOME" = some "/root" ∧
      env'.get? "PATH" = none := by
  have hfile := readText_diskOf fileText (.of_all (by decide +kernel))
  obtain ⟨env', hadd, hget⟩ := addFile_reads [("HOME", "/root")] hfile isWritten_fileLines
  refine ⟨hfile, isWritten_fileLines, env', hadd, ?_, ?_, (hget "HOME").1 _ rfl, ((hget "PATH").2 rfl).1 (by decide)⟩
  · obtain ⟨value, hreads, hvalue⟩ := ((hget "TOOL").2 rfl).2 _ rfl
    rwa [hreads.eq_value (by decide)] at hvalue
  · obtain ⟨value, hreads, hvalue⟩ := ((hget "NOTE").2 rfl).2 _ rfl
    cases hreads
    exact hvalue

/-- An empty value before a remark is not read back: the remark is read. -/
theorem addFile_empty_before_remark :
    (Line.bare false "KEY" "" (some (" ", " comment"))).text = "KEY= # comment".toList ∧
    addFile [] (diskOf "KEY= # comment") (.ofText fileName) = .ok [("KEY", "# comment")] := by
  refine ⟨by decide +kernel, ?_⟩
  rw [addFile_of_text (readText_diskOf _ (.of_all (by decide +kernel)))]
  rfl

end

end Assay.Environment
