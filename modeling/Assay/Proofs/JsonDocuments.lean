import Assay.Proofs.JsonTokens
import Assay.Proofs.Reordering

/-!
# Reading back documents

A value is kept in a document (`Json.isStorable`) if its texts are held code point by code point, its integers
have a written form, its doubles are read back from their shortest texts, and its mappings have different texts
as keys. Such a value is read back from its document (`Json.roundTrips_of_isStorable`); only the entries of its
mappings may come back in another order, the one in which they were written. If its texts also have no halves
of surrogate pairs, then it has a document, which has bytes (`Json.bytes_of_isStorable`).
-/

namespace Assay

/-- The text of a document gives back the value that was written, with the entries of mappings in any
order. -/
def Json.RoundTrips (v : Value) : Prop :=
  ∀ text, Json.document v = .ok text → ∃ w, Json.read text = .ok w ∧ w.Reordered v

namespace Json

open Text

/-! ## Values that are kept -/

/-- Whether a text is kept: it is held code point by code point, and has no halves of surrogate pairs if it
must be whole. -/
def keeps (whole : Bool) (s : String) : Bool :=
  isHeld s && (!whole || (units s.toList).all fun u => !Text.isSurrogate u)

/-- Whether a double is read back from its text. -/
def rereads (x : Float) : Bool :=
  match numberAt (float x).toList with
  | .ok (.float y, []) => y.toBits == x.toBits
  | _ => false

/-- The keys of a mapping that are texts. -/
def textKeys (es : List (Value × Value)) : List String :=
  es.filterMap fun e =>
    match e.1 with
    | .text k => some k
    | _ => none

mutual

/-- Whether a value is kept in a document, and in a file if its texts are whole. -/
def isStorable (whole : Bool) : Value → Bool
  | .null | .bool _ => true
  | .int n => decide (n.natAbs < tenTo Numeral.maxDigits)
  | .float x => rereads x
  | .text s => keeps whole s
  | .list items => areStorable whole items
  | .map es => decide (textKeys es).Nodup && hasStorable whole es
  | _ => false

/-- Whether all items of a list are kept. -/
def areStorable (whole : Bool) : List Value → Bool
  | [] => true
  | v :: rest => isStorable whole v && areStorable whole rest

/-- Whether all entries of a mapping are kept, with texts as keys. -/
def hasStorable (whole : Bool) : List (Value × Value) → Bool
  | [] => true
  | (.text k, v) :: rest => keeps whole k && isStorable whole v && hasStorable whole rest
  | _ => false

end

/-- A character that a value can start with: no white space and no closing bracket. -/
structure IsStart (c : Char) : Prop where
  ascii : c.toNat < 0x80
  space : isSpace c = false
  item : c ≠ ']'
  member : c ≠ '\x7d'

/-- A text is read as a value, whatever stands behind its end. -/
structure ReadsAs (s : String) (v : Value) : Prop where
  starts : ∃ c cs, s.toList = c :: cs ∧ IsStart c
  reads {rest : List Char} {bound : ℕ} : IsEnd rest → s.toList.length < bound →
    ∃ w, valueAt bound (s.toList ++ rest) = .ok (w, rest) ∧ w.Reordered v

section
variable {c : Char} {cs out rest : List Char} {s : String} {v : Value} {bound : ℕ}

/-! ## Scalars -/

theorem start_of_numberAt (h : numberAt cs = .ok (v, out)) :
    ∃ c tail, cs = c :: tail ∧ (c.isDigit = true ∨ c = '-' ∧ ∃ d ds, tail = d :: ds ∧ d.isDigit = true) := by
  have digit : ∀ {body : List Char}, (wholeOf body).1.isEmpty = false → ∃ d ds, body = d :: ds ∧ d.isDigit = true := by
    intro body hbody
    cases body with
    | nil => cases hbody
    | cons d ds =>
      refine ⟨d, ds, rfl, ?_⟩
      by_contra hd
      have hzero : d ≠ '0' := by
        rintro rfl
        exact hd rfl
      have hwhole : wholeOf (d :: ds) = digitsOf (d :: ds) := by
        unfold wholeOf
        split
        next he => exact absurd (List.cons.inj he).1 hzero
        · rfl
      rw [hwhole] at hbody
      simp [digitsOf, List.span_eq_takeWhile_dropWhile, hd] at hbody
  have hne : cs ≠ [] := by
    rintro rfl
    cases h
  obtain ⟨c, tail, rfl⟩ := List.exists_cons_of_ne_nil hne
  have hwhole : (wholeOf (minusOf (c :: tail)).2).1.isEmpty = false := by
    rw [numberAt_parts] at h
    by_contra hempty
    simp only [Bool.not_eq_false] at hempty
    simp only [hempty, if_true] at h
    cases h
  refine ⟨c, tail, rfl, ?_⟩
  by_cases hminus : c = '-'
  · subst hminus
    exact .inr ⟨rfl, digit hwhole⟩
  · have hown : minusOf (c :: tail) = (false, c :: tail) := minusOf.eq_2 _ fun _ he => hminus (List.cons.inj he).1
    rw [hown] at hwhole
    obtain ⟨d, ds, he, hd⟩ := digit hwhole
    rw [(List.cons.inj he).1]
    exact .inl hd

theorem isHeld_of_keeps {whole : Bool} {t : String} (h : keeps whole t = true) : isHeld t = true :=
  (Bool.and_eq_true_iff.1 h).1

theorem whole_of_keeps {t : String} (h : keeps true t = true) : ∀ u ∈ units t.toList, Text.isSurrogate u = false := by
  simpa using (Bool.and_eq_true_iff.1 h).2

theorem isStart_of_isDigit (h : c.isDigit = true) : IsStart c := by
  have hrange := toNat_of_isDigit h
  have other : ∀ {d : Char}, d.isDigit = false → c ≠ d := by
    rintro d hd rfl
    rw [h] at hd
    cases hd
  have hspace : isSpace c = false := by
    simp only [isSpace, Bool.or_eq_false_iff]
    exact ⟨⟨⟨beq_false_of_ne (other rfl), beq_false_of_ne (other rfl)⟩, beq_false_of_ne (other rfl)⟩,
      beq_false_of_ne (other rfl)⟩
  exact ⟨by omega, hspace, other rfl, other rfl⟩

theorem wordAt?_eq_none (h : ∀ w ∈ words, w.1.toList.isPrefixOf cs = false) : wordAt? cs = none := by
  rw [wordAt?, List.findSome?_eq_none_iff]
  intro w hw
  simp [afterWord?, h w hw]

/-- A text that is read as a number is no word. -/
theorem wordAt?_of_numberAt (h : numberAt cs = .ok (v, out)) (rest : List Char) : wordAt? (cs ++ rest) = none := by
  obtain ⟨c, tail, rfl, hc⟩ := start_of_numberAt h
  refine wordAt?_eq_none ?_
  have ne : ∀ {c d : Char}, d.isDigit = true → c.isDigit = false → (c == d) = false := by
    intro c d hd hc
    refine beq_false_of_ne ?_
    rintro rfl
    rw [hd] at hc
    cases hc
  rcases hc with hdigit | ⟨rfl, d, ds, rfl, hdigit⟩
  · have hn := ne (c := 'n') hdigit rfl
    have ht := ne (c := 't') hdigit rfl
    have hf := ne (c := 'f') hdigit rfl
    have hN := ne (c := 'N') hdigit rfl
    have hI := ne (c := 'I') hdigit rfl
    have hm := ne (c := '-') hdigit rfl
    simp [words, List.isPrefixOf, hn, ht, hf, hN, hI, hm]
  · have hI := ne (c := 'I') hdigit rfl
    simp [words, List.isPrefixOf, hI]

/-- A number that is read to its end is read as a value. -/
theorem readsAs_number (h : numberAt s.toList = .ok (v, [])) : ReadsAs s v := by
  obtain ⟨c, tail, hs, hc⟩ := start_of_numberAt h
  have hother : c ≠ '"' ∧ c ≠ '[' ∧ c ≠ '\x7b' := by
    refine ⟨?_, ?_, ?_⟩ <;>
    · rintro rfl
      rcases hc with hdigit | ⟨hdash, -⟩
      · exact absurd hdigit (by decide)
      · exact absurd hdash (by decide)
  refine ⟨⟨c, tail, hs, ?_⟩, fun {rest bound} hend hb => ?_⟩
  · rcases hc with hdigit | ⟨rfl, -⟩
    · exact isStart_of_isDigit hdigit
    · exact ⟨by decide, by decide, by decide, by decide⟩
  · obtain ⟨bound, rfl⟩ := Nat.exists_eq_succ_of_ne_zero (by omega : bound ≠ 0)
    refine ⟨v, ?_, .refl v⟩
    have hword := wordAt?_of_numberAt h rest
    have hnumber := numberAt_append hend h
    rw [hs, List.cons_append] at hword hnumber ⊢
    rw [valueAt.eq_def]
    simp only
    split
    next he => exact absurd (List.cons.inj he).1 hother.1
    next he => exact absurd (List.cons.inj he).1 hother.2.2
    next he => exact absurd (List.cons.inj he).1 hother.2.1
    · rw [hword]
      exact hnumber

theorem readsAs_null : ReadsAs "null" .null := by
  refine ⟨⟨'n', "ull".toList, rfl, by decide, by decide, by decide, by decide⟩, fun {rest bound} _ hb => ?_⟩
  obtain ⟨bound, rfl⟩ := Nat.exists_eq_succ_of_ne_zero (by omega : bound ≠ 0)
  exact ⟨.null, rfl, .refl _⟩

theorem readsAs_bool (b : Bool) : ReadsAs (if b then "true" else "false") (.bool b) := by
  cases b with
  | true =>
    refine ⟨⟨'t', "rue".toList, rfl, by decide, by decide, by decide, by decide⟩, fun {rest bound} _ hb => ?_⟩
    obtain ⟨bound, rfl⟩ := Nat.exists_eq_succ_of_ne_zero (by omega : bound ≠ 0)
    exact ⟨.bool true, rfl, .refl _⟩
  | false =>
    refine ⟨⟨'f', "alse".toList, rfl, by decide, by decide, by decide, by decide⟩, fun {rest bound} _ hb => ?_⟩
    obtain ⟨bound, rfl⟩ := Nat.exists_eq_succ_of_ne_zero (by omega : bound ≠ 0)
    exact ⟨.bool false, rfl, .refl _⟩

theorem toList_string (t : String) : ∃ cs, (string false t).toList = '"' :: cs :=
  ⟨_, by simp [string]; rfl⟩

theorem readsAs_text {t : String} (h : isHeld t = true) : ReadsAs (string false t) (.text t) := by
  obtain ⟨cs, hcs⟩ := toList_string t
  refine ⟨⟨'"', cs, hcs, by decide, by decide, by decide, by decide⟩, fun {rest bound} _ hb => ?_⟩
  obtain ⟨bound, rfl⟩ := Nat.exists_eq_succ_of_ne_zero (by omega : bound ≠ 0)
  have hread := @stringAt_string rest t h
  refine ⟨.text t, ?_, .refl _⟩
  rw [hcs, List.cons_append] at hread ⊢
  rw [valueAt]
  simp only [hread, bind, Except.bind, pure, Except.pure]

theorem readsAs_float {x : Float} (h : rereads x = true) : ReadsAs (float x) (.float x) := by
  unfold rereads at h
  split at h
  next y hy =>
    have hbits : y = x := by
      obtain ⟨⟨a, ha⟩⟩ := x
      obtain ⟨⟨b, hb⟩⟩ := y
      cases eq_of_beq h
      rfl
    exact readsAs_number (hbits ▸ hy)
  · cases h

/-! ## Lists -/

/-- A line end and the spaces of the next line. -/
def gap (n : ℕ) : List Char := '\n' :: List.replicate n ' '

/-- Texts on lines of their own, with commas between them. -/
def joined (n : ℕ) (texts : List String) : List Char := (',' :: gap n).intercalate (texts.map String.toList)

theorem joined_cons_cons (n : ℕ) (s t : String) (texts : List String) :
    joined n (s :: t :: texts) = s.toList ++ ',' :: gap n ++ joined n (t :: texts) := by
  rw [joined, List.map_cons, List.map_cons, List.intercalate_cons_cons]
  rfl

/-- Texts on lines start with the first text. -/
theorem joined_starts {P : Char → Prop} {s : String} (hs : ∃ c cs, s.toList = c :: cs ∧ P c) (n : ℕ)
    (texts : List String) (rest : List Char) : ∃ c cs, joined n (s :: texts) ++ rest = c :: cs ∧ P c := by
  obtain ⟨c, cs, hc, hP⟩ := hs
  cases texts with
  | nil => exact ⟨c, cs ++ rest, by simp [joined, hc], hP⟩
  | cons t texts => exact ⟨c, _, by rw [joined_cons_cons, hc]; rfl, hP⟩

theorem toList_enclose {depth : ℕ} {opening closing : String} {texts : List String} (h : texts ≠ []) :
    (enclose .file depth opening closing texts).toList =
      opening.toList ++ (gap (2 * (depth + 1)) ++ (joined (2 * (depth + 1)) texts ++
        (gap (2 * depth) ++ closing.toList))) := by
  have hempty : texts.isEmpty = false := List.isEmpty_eq_false_iff.2 h
  have hline : ∀ n, ("\n" ++ String.ofList (List.replicate n ' ')).toList = gap n := fun n => by
    rw [String.toList_append, @String.toList_ofList (List.replicate n ' ')]
    rfl
  have hsep : ∀ n, ("," ++ ("\n" ++ String.ofList (List.replicate n ' '))).toList = ',' :: gap n := fun n => by
    rw [String.toList_append, hline]
    rfl
  rw [enclose, hempty]
  simp only [Style.file, Bool.false_eq_true, if_false]
  rw [String.toList_append, String.toList_append, String.toList_append, String.toList_append, hline, hline,
    String.toList_intercalate, hsep]
  simp only [joined, List.append_assoc]

theorem isEnd_comma (rest : List Char) : IsEnd (',' :: rest) := ⟨_, _, rfl, .inl rfl⟩

theorem isEnd_gap (n : ℕ) (rest : List Char) : IsEnd (gap n ++ rest) := ⟨_, _, rfl, .inr rfl⟩

theorem skip_start (h : isSpace c = false) : skip (c :: rest) = c :: rest := by
  rw [skip, List.dropWhile_cons_of_neg (by simp [h])]

theorem skip_gap (n : ℕ) (h : isSpace c = false) : skip (gap n ++ c :: rest) = c :: rest := by
  have hall : ∀ d ∈ gap n, isSpace d = true := by
    intro d hd
    rcases List.mem_cons.1 hd with rfl | hd
    · rfl
    · rw [List.eq_of_mem_replicate hd]
      rfl
  rw [skip, List.dropWhile_append_of_pos hall]
  exact skip_start h

/-- Items are read one after the other up to the closing bracket. -/
theorem itemsAt_joined {n m : ℕ} {texts : List String} {vs : List Value} (hs : ReadsAs s v)
    (h : List.Forall₂ ReadsAs texts vs) (hb : (joined n (s :: texts)).length + 1 < bound) :
    ∃ ws, itemsAt bound (joined n (s :: texts) ++ (gap m ++ ']' :: rest)) = .ok (ws, rest) ∧
      List.Forall₂ Value.Reordered ws (v :: vs) := by
  induction h generalizing s v bound with
  | nil =>
    have hjoined : joined n [s] = s.toList := by simp [joined]
    rw [hjoined] at hb ⊢
    obtain ⟨bound, rfl⟩ := Nat.exists_eq_succ_of_ne_zero (by omega : bound ≠ 0)
    obtain ⟨w, hw, hwv⟩ := hs.reads (isEnd_gap m (']' :: rest)) (by omega : s.toList.length < bound)
    refine ⟨[w], ?_, .cons hwv .nil⟩
    rw [itemsAt]
    simp only [hw, bind, Except.bind]
    rw [skip_gap m (by decide)]
    rfl
  | @cons t u texts vs htu hrest ih =>
    rw [joined_cons_cons] at hb ⊢
    simp only [List.length_append, List.length_cons] at hb
    obtain ⟨bound, rfl⟩ := Nat.exists_eq_succ_of_ne_zero (by omega : bound ≠ 0)
    obtain ⟨c, tail, htail, hstart⟩ := joined_starts htu.starts n texts (gap m ++ ']' :: rest)
    obtain ⟨w, hw, hwv⟩ := hs.reads (isEnd_comma (gap n ++ (joined n (t :: texts) ++ (gap m ++ ']' :: rest))))
      (by omega : s.toList.length < bound)
    obtain ⟨ws, hws, hall⟩ := ih htu (by omega : (joined n (t :: texts)).length + 1 < bound)
    refine ⟨w :: ws, ?_, .cons hwv hall⟩
    have happend : s.toList ++ ',' :: gap n ++ joined n (t :: texts) ++ (gap m ++ ']' :: rest) =
        s.toList ++ ',' :: (gap n ++ (joined n (t :: texts) ++ (gap m ++ ']' :: rest))) := by
      simp
    have hskip : skip (gap n ++ (joined n (t :: texts) ++ (gap m ++ ']' :: rest))) =
        joined n (t :: texts) ++ (gap m ++ ']' :: rest) := by
      rw [htail, skip_gap n hstart.space]
    rw [happend, itemsAt]
    simp only [hw, bind, Except.bind]
    rw [skip_start (by decide)]
    simp only [hskip, hws]
    rfl

/-- A list is read item by item. -/
theorem readsAs_list {depth : ℕ} {texts : List String} {vs : List Value} (h : List.Forall₂ ReadsAs texts vs) :
    ReadsAs (enclose .file depth "[" "]" texts) (.list vs) := by
  cases h with
  | nil =>
    have htext : (enclose .file depth "[" "]" []).toList = ['[', ']'] := by simp [enclose]
    refine ⟨⟨'[', [']'], htext, by decide, by decide, by decide, by decide⟩, fun {rest bound} _ hb => ?_⟩
    obtain ⟨bound, rfl⟩ := Nat.exists_eq_succ_of_ne_zero (by omega : bound ≠ 0)
    exact ⟨.list [], by rw [htext]; rfl, .refl _⟩
  | @cons t u texts vs htu hrest =>
    have htext := @toList_enclose depth "[" "]" (t :: texts) (List.cons_ne_nil _ _)
    refine ⟨⟨'[', _, htext, by decide, by decide, by decide, by decide⟩, fun {rest bound} _ hb => ?_⟩
    obtain ⟨bound, rfl⟩ := Nat.exists_eq_succ_of_ne_zero (by omega : bound ≠ 0)
    obtain ⟨c, tail, htail, hstart⟩ :=
      joined_starts htu.starts (2 * (depth + 1)) texts (gap (2 * depth) ++ ']' :: rest)
    have hlen : (joined (2 * (depth + 1)) (t :: texts)).length + 1 < bound := by
      rw [htext] at hb
      simp only [List.length_append, gap, List.length_cons] at hb
      omega
    obtain ⟨ws, hws, hall⟩ := @itemsAt_joined rest t u bound _ (2 * depth) texts vs htu hrest hlen
    refine ⟨.list ws, ?_, .list hall⟩
    have happend : (enclose .file depth "[" "]" (t :: texts)).toList ++ rest =
        '[' :: (gap (2 * (depth + 1)) ++ (joined (2 * (depth + 1)) (t :: texts) ++ (gap (2 * depth) ++ ']' :: rest))) := by
      rw [htext]
      simp
    have hskip := @skip_gap c tail (2 * (depth + 1)) hstart.space
    rw [← htail] at hskip
    rw [happend, valueAt]
    simp only [hskip]
    rw [htail] at hws ⊢
    split
    next he => exact absurd (List.cons.inj he).1 hstart.item
    · rw [hws]
      rfl

/-! ## Mappings -/

/-- A text is a key and a value as they stand in an object. -/
def IsMember (text : String) (e : Value × Value) : Prop :=
  ∃ k t, e.1 = .text k ∧ isHeld k = true ∧ text = string false k ++ ": " ++ t ∧ ReadsAs t e.2

theorem IsMember.starts {text : String} {e : Value × Value} (h : IsMember text e) :
    ∃ c cs, text.toList = c :: cs ∧ c = '"' := by
  obtain ⟨k, t, -, -, rfl, -⟩ := h
  obtain ⟨cs, hcs⟩ := toList_string k
  exact ⟨'"', _, by rw [String.toList_append, String.toList_append, hcs]; rfl, rfl⟩

/-- A member is read up to what stands behind its value. -/
theorem membersAt_member {text : String} {e : Value × Value} (h : IsMember text e) (hend : IsEnd rest)
    (hb : text.toList.length < bound) : ∃ w, w.Reordered e.2 ∧
      (∀ out, skip rest = '\x7d' :: out → membersAt (bound + 1) (text.toList ++ rest) = .ok ([(e.1, w)], out)) ∧
        ∀ out more left, skip rest = ',' :: out → membersAt bound (skip out) = .ok (more, left) →
          membersAt (bound + 1) (text.toList ++ rest) = .ok ((e.1, w) :: more, left) := by
  obtain ⟨k, t, hk, hheld, rfl, ht⟩ := h
  obtain ⟨cs, hcs⟩ := toList_string k
  obtain ⟨c, tail, htail, hstart⟩ := ht.starts
  have hlen : t.toList.length < bound := by
    simp only [String.toList_append, List.length_append] at hb
    omega
  obtain ⟨w, hw, hwe⟩ := ht.reads hend hlen
  have htext : (string false k ++ ": " ++ t).toList ++ rest = (string false k).toList ++ ':' :: ' ' :: (t.toList ++ rest) := by
    simp
  have hname := @stringAt_string (':' :: ' ' :: (t.toList ++ rest)) k hheld
  have hskip : skip (' ' :: (t.toList ++ rest)) = t.toList ++ rest := by
    rw [skip, List.dropWhile_cons_of_pos (by decide), htail, List.cons_append]
    exact skip_start hstart.space
  refine ⟨w, hwe, fun out hout => ?_, fun out more left hout hmore => ?_⟩
  all_goals
    rw [htext]
    rw [hcs, List.cons_append] at hname ⊢
    rw [membersAt]
    simp only [hname, bind, Except.bind, skip_start (by decide : isSpace ':' = false), hskip, hw, hk, hout]
  · rfl
  · rw [hmore]
    rfl

/-- Members are read one after the other up to the closing brace. -/
theorem membersAt_joined {n m : ℕ} {text : String} {e : Value × Value} {texts : List String}
    {es : List (Value × Value)} (hs : IsMember text e) (h : List.Forall₂ IsMember texts es)
    (hb : (joined n (text :: texts)).length + 1 < bound) :
    ∃ fs, membersAt bound (joined n (text :: texts) ++ (gap m ++ '\x7d' :: rest)) = .ok (fs, rest) ∧
      fs.map (·.1) = (e :: es).map (·.1) ∧
        List.Forall₂ Value.Reordered (fs.map (·.2)) ((e :: es).map (·.2)) := by
  induction h generalizing text e bound with
  | nil =>
    have hjoined : joined n [text] = text.toList := by simp [joined]
    rw [hjoined] at hb ⊢
    obtain ⟨bound, rfl⟩ := Nat.exists_eq_succ_of_ne_zero (by omega : bound ≠ 0)
    obtain ⟨w, hwe, hlast, -⟩ := membersAt_member hs (isEnd_gap m ('\x7d' :: rest)) (by omega : _ < bound)
    exact ⟨[(e.1, w)], hlast rest (skip_gap m (by decide)), rfl, .cons hwe .nil⟩
  | @cons t f texts es htf hrest ih =>
    rw [joined_cons_cons] at hb ⊢
    simp only [List.length_append, List.length_cons] at hb
    obtain ⟨bound, rfl⟩ := Nat.exists_eq_succ_of_ne_zero (by omega : bound ≠ 0)
    obtain ⟨c, tail, htail, rfl⟩ := joined_starts htf.starts n texts (gap m ++ '\x7d' :: rest)
    obtain ⟨w, hwe, -, hnext⟩ := membersAt_member hs
      (isEnd_comma (gap n ++ (joined n (t :: texts) ++ (gap m ++ '\x7d' :: rest)))) (by omega : _ < bound)
    obtain ⟨fs, hfs, hkeys, hall⟩ := ih htf (by omega : (joined n (t :: texts)).length + 1 < bound)
    have happend : text.toList ++ ',' :: gap n ++ joined n (t :: texts) ++ (gap m ++ '\x7d' :: rest) =
        text.toList ++ ',' :: (gap n ++ (joined n (t :: texts) ++ (gap m ++ '\x7d' :: rest))) := by
      simp
    have hskip : skip (gap n ++ (joined n (t :: texts) ++ (gap m ++ '\x7d' :: rest))) =
        joined n (t :: texts) ++ (gap m ++ '\x7d' :: rest) := by
      rw [htail, skip_gap n (by decide)]
    refine ⟨(e.1, w) :: fs, ?_, by rw [List.map_cons, List.map_cons, hkeys], .cons hwe hall⟩
    rw [happend]
    exact hnext _ fs rest (skip_start (by decide)) (by rw [hskip]; exact hfs)

/-- An entry with a new text as key is put behind the others. -/
theorem insertEntry_of_new {k : String} {acc : List (Value × Value)} (htexts : ∀ e ∈ acc, ∃ k, e.1 = .text k)
    (hk : .text k ∉ acc.map (·.1)) : Value.insertEntry (.text k) v acc = acc ++ [(.text k, v)] := by
  induction acc with
  | nil => rfl
  | cons e acc ih =>
    obtain ⟨key, w⟩ := e
    obtain ⟨l, rfl⟩ : ∃ l, key = .text l := htexts _ List.mem_cons_self
    rw [List.map_cons, List.mem_cons, not_or] at hk
    have hne : l ≠ k := by
      rintro rfl
      exact hk.1 rfl
    have hsame : Value.same (.text l) (.text k) = false := by simp [Value.same, hne]
    rw [Value.insertEntry, hsame, ih (fun e he => htexts e (List.mem_cons_of_mem _ he)) hk.2]
    rfl

/-- Entries whose keys are different texts are kept as they are. -/
theorem foldl_insertEntry {es acc : List (Value × Value)} (htexts : ∀ e ∈ acc ++ es, ∃ k, e.1 = .text k)
    (distinct : ((acc ++ es).map (·.1)).Nodup) :
    es.foldl (fun acc e => Value.insertEntry e.1 e.2 acc) acc = acc ++ es := by
  induction es generalizing acc with
  | nil => simp
  | cons e es ih =>
    obtain ⟨key, w⟩ := e
    obtain ⟨k, rfl⟩ : ∃ k, key = .text k := htexts (key, w) (by simp)
    have hnew : .text k ∉ acc.map (·.1) := by
      rw [List.map_append, List.map_cons] at distinct
      exact fun h => (List.disjoint_of_nodup_append distinct) h List.mem_cons_self
    have hstep := insertEntry_of_new (v := w) (fun e he => htexts e (List.mem_append_left _ he)) hnew
    rw [List.foldl_cons]
    simp only [hstep]
    rw [ih (by simpa using htexts) (by simpa using distinct)]
    simp

theorem ofEntries_of_texts {es : List (Value × Value)} (htexts : ∀ e ∈ es, ∃ k, e.1 = .text k)
    (distinct : (es.map (·.1)).Nodup) : Value.ofEntries es = .map es := by
  exact congrArg Value.map (foldl_insertEntry htexts distinct)

theorem text_of_members {texts : List String} {es : List (Value × Value)} (h : List.Forall₂ IsMember texts es) :
    ∀ e ∈ es, ∃ k, e.1 = .text k := by
  induction h with
  | nil => simp
  | cons he _ ih =>
    obtain ⟨k, _, hk, -⟩ := he
    exact List.forall_mem_cons.2 ⟨⟨k, hk⟩, ih⟩

/-- A mapping is read member by member. -/
theorem readsAs_map {depth : ℕ} {texts : List String} {es gs : List (Value × Value)}
    (h : List.Forall₂ IsMember texts es) (distinct : (es.map (·.1)).Nodup) (hperm : es.Perm gs) :
    ReadsAs (enclose .file depth "\x7b" "\x7d" texts) (.map gs) := by
  have htexts := text_of_members h
  cases h with
  | nil =>
    have htext : (enclose .file depth "\x7b" "\x7d" []).toList = ['\x7b', '\x7d'] := by simp [enclose]
    refine ⟨⟨'\x7b', ['\x7d'], htext, by decide, by decide, by decide, by decide⟩, fun {rest bound} _ hb => ?_⟩
    obtain ⟨bound, rfl⟩ := Nat.exists_eq_succ_of_ne_zero (by omega : bound ≠ 0)
    rw [List.nil_perm.1 hperm]
    exact ⟨.map [], by rw [htext]; rfl, .refl _⟩
  | @cons t e texts es hte hrest =>
    have htext := @toList_enclose depth "\x7b" "\x7d" (t :: texts) (List.cons_ne_nil _ _)
    refine ⟨⟨'\x7b', _, htext, by decide, by decide, by decide, by decide⟩, fun {rest bound} _ hb => ?_⟩
    obtain ⟨bound, rfl⟩ := Nat.exists_eq_succ_of_ne_zero (by omega : bound ≠ 0)
    obtain ⟨c, tail, htail, rfl⟩ :=
      joined_starts hte.starts (2 * (depth + 1)) texts (gap (2 * depth) ++ '\x7d' :: rest)
    have hlen : (joined (2 * (depth + 1)) (t :: texts)).length + 1 < bound := by
      rw [htext] at hb
      simp only [List.length_append, gap, List.length_cons] at hb
      omega
    obtain ⟨fs, hfs, hkeys, hall⟩ := @membersAt_joined rest bound _ (2 * depth) t e texts es hte hrest hlen
    refine ⟨.map fs, ?_, .map hkeys hall hperm⟩
    have happend : (enclose .file depth "\x7b" "\x7d" (t :: texts)).toList ++ rest =
        '\x7b' :: (gap (2 * (depth + 1)) ++
          (joined (2 * (depth + 1)) (t :: texts) ++ (gap (2 * depth) ++ '\x7d' :: rest))) := by
      rw [htext]
      simp
    have hskip := @skip_gap '"' tail (2 * (depth + 1)) (by decide)
    rw [← htail] at hskip
    have hentries : Value.ofEntries fs = .map fs := by
      refine ofEntries_of_texts (fun f hf => ?_) (hkeys ▸ distinct)
      have hmem : f.1 ∈ (e :: es).map (·.1) := hkeys ▸ List.mem_map_of_mem hf
      obtain ⟨g, hg, hgf⟩ := List.mem_map.1 hmem
      exact hgf ▸ htexts g hg
    rw [happend, valueAt]
    simp only [hskip]
    rw [htail] at hfs ⊢
    split
    next he => exact absurd (List.cons.inj he).1 (by decide)
    · rw [hfs, ← hentries]
      rfl

end

/-! ## Documents -/

section
variable {whole : Bool}

/-- A rendered entry: its key is a text, and its value is read back. -/
def IsField (f : Value × String) (e : Value × Value) : Prop :=
  f.1 = e.1 ∧ (∃ k, e.1 = .text k ∧ isHeld k = true) ∧ ReadsAs f.2 e.2

theorem IsField.isMember {f : Value × String} {e : Value × Value} {text : String} (h : IsField f e)
    (htext : member .file f = .ok text) : IsMember text e := by
  obtain ⟨hkey, ⟨k, hk, hheld⟩, hreads⟩ := h
  refine ⟨k, f.2, hk, hheld, ?_, hreads⟩
  rw [member, hkey, hk] at htext
  exact (Except.ok.inj htext).symm

theorem key_of_hasStorable {k v : Value} {es : List (Value × Value)} (h : hasStorable whole ((k, v) :: es) = true) :
    ∃ t, k = .text t := by
  cases k with
  | text t => exact ⟨t, rfl⟩
  | _ => simp [hasStorable] at h

theorem keys_eq {es : List (Value × Value)} (h : hasStorable whole es = true) :
    es.map (·.1) = (textKeys es).map .text := by
  induction es with
  | nil => rfl
  | cons e es ih =>
    obtain ⟨k, v⟩ := e
    cases k with
    | text k =>
      rw [hasStorable, Bool.and_eq_true] at h
      rw [List.map_cons, ih h.2]
      rfl
    | _ => simp [hasStorable] at h

/-- The members of sorted fields are those of the entries in another order. -/
theorem members_of_sorted {fields sorted : List (Value × String)} {members : List String} {es : List (Value × Value)}
    (h : List.Forall₂ IsField fields es) (hsorted : sorted.Perm fields)
    (hmembers : sorted.mapM (member .file) = .ok members) :
    ∃ es', List.Forall₂ IsMember members es' ∧ es'.Perm es := by
  obtain ⟨es', hfields, hperm⟩ := List.perm_comp_forall₂ hsorted h
  refine ⟨es', ?_, hperm⟩
  have hall := mapM_eq_ok.1 hmembers
  clear h hsorted hperm hmembers
  induction hfields generalizing members with
  | nil =>
    cases hall
    exact .nil
  | cons hf _ ih =>
    obtain _ | ⟨htext, hrest⟩ := hall
    exact .cons (hf.isMember htext) (ih hrest)

mutual

/-- The text of a value is read as that value. -/
theorem readsAs_render (v : Value) : isStorable whole v = true → ∀ {depth : ℕ} {s : String},
    render .file depth v = .ok s → ReadsAs s v := by
  match v with
  | .null =>
    intro _ depth s h
    rw [render] at h
    cases h
    exact readsAs_null
  | .bool b =>
    intro _ depth s h
    rw [render] at h
    cases h
    exact readsAs_bool b
  | .int n =>
    intro _ depth s h
    rw [render] at h
    exact readsAs_number (numberAt_int (mapError_eq_ok.1 h))
  | .float x =>
    intro hv depth s h
    rw [isStorable] at hv
    rw [render] at h
    cases h
    exact readsAs_float hv
  | .text t =>
    intro hv depth s h
    rw [isStorable] at hv
    rw [render] at h
    cases h
    exact readsAs_text (isHeld_of_keeps hv)
  | .list items =>
    intro hv depth s h
    rw [isStorable] at hv
    rw [render] at h
    obtain ⟨texts, htexts, h⟩ := bind_eq_ok.1 h
    cases h
    exact readsAs_list (readsAs_renderItems items hv htexts)
  | .map es =>
    intro hv depth s h
    rw [isStorable, Bool.and_eq_true, decide_eq_true_iff] at hv
    rw [render] at h
    obtain ⟨fields, hfields, h⟩ := bind_eq_ok.1 h
    obtain ⟨sorted, hsorted, h⟩ := bind_eq_ok.1 h
    obtain ⟨members, hmembers, h⟩ := bind_eq_ok.1 h
    cases h
    obtain ⟨es', hes', hperm⟩ :=
      members_of_sorted (readsAs_renderFields es hv.2 hfields) (perm_of_sortFields hsorted) hmembers
    have distinct : (es.map (·.1)).Nodup := by
      rw [keys_eq hv.2]
      exact hv.1.map fun _ _ he => Value.text.inj he
    exact readsAs_map hes' ((hperm.map _).nodup_iff.2 distinct) hperm
  | .tuple _ | .date _ | .moment _ | .bytes _ | .set _ | .ref _ | .looped _ _ =>
    intro hv
    simp [isStorable] at hv

theorem readsAs_renderItems (vs : List Value) : areStorable whole vs = true → ∀ {depth : ℕ} {texts : List String},
    renderItems .file depth vs = .ok texts → List.Forall₂ ReadsAs texts vs := by
  match vs with
  | [] =>
    intro _ depth texts h
    rw [renderItems] at h
    cases h
    exact .nil
  | v :: vs =>
    intro hv depth texts h
    rw [areStorable, Bool.and_eq_true] at hv
    rw [renderItems] at h
    obtain ⟨s, hs, h⟩ := bind_eq_ok.1 h
    obtain ⟨rest, hrest, h⟩ := bind_eq_ok.1 h
    cases h
    exact .cons (readsAs_render v hv.1 hs) (readsAs_renderItems vs hv.2 hrest)

theorem readsAs_renderFields (es : List (Value × Value)) : hasStorable whole es = true →
    ∀ {depth : ℕ} {fields : List (Value × String)}, renderFields .file depth es = .ok fields →
      List.Forall₂ IsField fields es := by
  match es with
  | [] =>
    intro _ depth fields h
    rw [renderFields] at h
    cases h
    exact .nil
  | (k, v) :: es =>
    intro hv depth fields h
    obtain ⟨k, rfl⟩ := key_of_hasStorable hv
    rw [hasStorable, Bool.and_eq_true, Bool.and_eq_true] at hv
    rw [renderFields] at h
    obtain ⟨s, hs, h⟩ := bind_eq_ok.1 h
    obtain ⟨rest, hrest, h⟩ := bind_eq_ok.1 h
    cases h
    exact .cons ⟨rfl, ⟨k, rfl, isHeld_of_keeps hv.1.1⟩, readsAs_render v hv.1.2 hs⟩ (readsAs_renderFields es hv.2 hrest)

end

/-- **Documents.** A value of this kind is read back from its document. -/
theorem roundTrips_of_isStorable {v : Value} (hv : isStorable whole v = true) : RoundTrips v := by
  intro text h
  obtain ⟨s, hs, h⟩ := bind_eq_ok.1 h
  cases h
  obtain ⟨⟨c, cs, hcs, hstart⟩, hreads⟩ := readsAs_render v hv hs
  have htext : (s ++ "\n").toList = s.toList ++ ['\n'] := String.toList_append
  have hend : IsEnd ['\n'] := ⟨'\n', [], rfl, .inr rfl⟩
  have hlen : s.toList.length < (s ++ "\n").toList.length + 1 := by
    rw [htext, List.length_append]
    omega
  obtain ⟨w, hw, hwv⟩ := hreads hend hlen
  refine ⟨w, ?_, hwv⟩
  have hmark : c ≠ '\uFEFF' := by
    rintro rfl
    exact absurd hstart.ascii (by decide)
  have hskip : skip (s ++ "\n").toList = s.toList ++ ['\n'] := by
    rw [htext, hcs, List.cons_append]
    exact skip_start hstart.space
  simp only [read, hskip, hw]
  rw [htext, hcs, List.cons_append]
  split
  next he => exact absurd (List.cons.inj he).1 hmark
  · rfl

end

/-! ## Bytes -/

theorem written_keeps {t : String} (h : keeps true t = true) : Written true (string false t).toList :=
  written_string false fun _ => whole_of_keeps h

theorem exists_sortFields {fields : List (Value × String)} (h : ∀ f ∈ fields, ∃ k, f.1 = .text k) :
    ∃ sorted, sortFields fields = .ok sorted := by
  cases fields with
  | nil => exact ⟨[], rfl⟩
  | cons f rest =>
    have hall : (rest.all fun g => comparable f.1 g.1) = true := by
      obtain ⟨k, hk⟩ := h f List.mem_cons_self
      refine List.all_eq_true.2 fun g hg => ?_
      obtain ⟨l, hl⟩ := h g (List.mem_cons_of_mem _ hg)
      rw [hk, hl]
      rfl
    exact ⟨_, by rw [sortFields, if_pos hall]⟩

/-- A rendered entry whose key and value are kept. -/
def IsWhole (f : Value × String) : Prop := (∃ k, f.1 = .text k ∧ keeps true k = true) ∧ Written true f.2.toList

theorem exists_members {fields : List (Value × String)} (h : ∀ f ∈ fields, IsWhole f) :
    ∃ members, fields.mapM (member .file) = .ok members ∧ ∀ m ∈ members, Written true m.toList := by
  have each : ∀ f ∈ fields, ∃ m, member .file f = .ok m ∧ Written true m.toList := by
    intro f hf
    obtain ⟨⟨k, hk, hkeeps⟩, hf⟩ := h f hf
    have hmember : member .file f = .ok (string false k ++ ": " ++ f.2) := by
      rw [member, hk]
      rfl
    refine ⟨_, hmember, written_member Style.isPlain_file hf (fun _ key hkey => ?_) hmember⟩
    rw [hk] at hkey
    cases hkey
    exact whole_of_keeps hkeeps
  obtain ⟨members, hmembers⟩ := exists_mapM fun f hf => (each f hf).imp fun _ hm => hm.1
  refine ⟨members, hmembers, fun m hm => ?_⟩
  obtain ⟨f, hf, hfm⟩ := (mem_of_mapM_eq_ok hmembers m).1 hm
  obtain ⟨m', hm', hw⟩ := each f hf
  cases hfm.symm.trans hm'
  exact hw

mutual

/-- A value that is kept has a text, which is whole. -/
theorem exists_render (v : Value) : isStorable true v = true → ∀ (depth : ℕ),
    ∃ s, render .file depth v = .ok s ∧ Written true s.toList := by
  match v with
  | .null =>
    intro _ depth
    exact ⟨_, by rw [render], .of_all rfl⟩
  | .bool b =>
    intro _ depth
    exact ⟨_, by rw [render], by cases b <;> exact .of_all rfl⟩
  | .int n =>
    intro hv depth
    rw [isStorable, decide_eq_true_iff] at hv
    have hn : Numeral.written n = .ok (toString n) := by
      rw [Numeral.written, if_neg (by omega)]
    exact ⟨toString n, by rw [render, hn]; rfl, (isPlain_int n).written⟩
  | .float x =>
    intro _ depth
    exact ⟨_, by rw [render], (isPlain_float x).written⟩
  | .text t =>
    intro hv depth
    rw [isStorable] at hv
    exact ⟨_, by rw [render]; rfl, written_keeps hv⟩
  | .list items =>
    intro hv depth
    rw [isStorable] at hv
    obtain ⟨texts, htexts, hw⟩ := exists_renderItems items hv (depth + 1)
    refine ⟨_, by rw [render, htexts]; rfl, ?_⟩
    exact written_enclose Style.isPlain_file (isPlain_of_all rfl) (isPlain_of_all rfl) hw
  | .map es =>
    intro hv depth
    rw [isStorable, Bool.and_eq_true] at hv
    obtain ⟨fields, hfields, hw⟩ := exists_renderFields es hv.2 (depth + 1)
    obtain ⟨sorted, hsorted⟩ := exists_sortFields fun f hf => (hw f hf).1.imp fun _ hk => hk.1
    obtain ⟨members, hmembers, hw⟩ :=
      exists_members fun f hf => hw f ((perm_of_sortFields hsorted).mem_iff.1 hf)
    refine ⟨_, by rw [render, hfields]; simp only [bind, Except.bind, hsorted, hmembers]; rfl, ?_⟩
    exact written_enclose Style.isPlain_file (isPlain_of_all rfl) (isPlain_of_all rfl) hw
  | .tuple _ | .date _ | .moment _ | .bytes _ | .set _ | .ref _ | .looped _ _ =>
    intro hv
    simp [isStorable] at hv

theorem exists_renderItems (vs : List Value) : areStorable true vs = true → ∀ (depth : ℕ),
    ∃ texts, renderItems .file depth vs = .ok texts ∧ ∀ s ∈ texts, Written true s.toList := by
  match vs with
  | [] =>
    intro _ depth
    exact ⟨[], by rw [renderItems], by simp⟩
  | v :: vs =>
    intro hv depth
    rw [areStorable, Bool.and_eq_true] at hv
    obtain ⟨s, hs, hw⟩ := exists_render v hv.1 depth
    obtain ⟨rest, hrest, hws⟩ := exists_renderItems vs hv.2 depth
    exact ⟨s :: rest, by rw [renderItems, hs, hrest]; rfl, List.forall_mem_cons.2 ⟨hw, hws⟩⟩

theorem exists_renderFields (es : List (Value × Value)) : hasStorable true es = true → ∀ (depth : ℕ),
    ∃ fields, renderFields .file depth es = .ok fields ∧ ∀ f ∈ fields, IsWhole f := by
  match es with
  | [] =>
    intro _ depth
    exact ⟨[], by rw [renderFields], by simp⟩
  | (k, v) :: es =>
    intro hv depth
    obtain ⟨k, rfl⟩ := key_of_hasStorable hv
    rw [hasStorable, Bool.and_eq_true, Bool.and_eq_true] at hv
    obtain ⟨s, hs, hw⟩ := exists_render v hv.1.2 depth
    obtain ⟨rest, hrest, hws⟩ := exists_renderFields es hv.2 depth
    exact ⟨(.text k, s) :: rest, by rw [renderFields, hs, hrest]; rfl,
      List.forall_mem_cons.2 ⟨⟨⟨k, rfl, hv.1.1⟩, hw⟩, hws⟩⟩

end

/-- **Bytes.** A value that is kept has a document, and the document has bytes. -/
theorem bytes_of_isStorable {v : Value} (hv : isStorable true v = true) :
    ∃ text bytes, document v = .ok text ∧ Utf8.encode? text = .ok bytes := by
  obtain ⟨s, hs, hw⟩ := exists_render v hv 0
  have htext : Written true (s ++ "\n").toList := by
    rw [String.toList_append]
    exact hw.append (.of_all rfl)
  obtain ⟨bytes, hbytes⟩ := Utf8.encode?_of_written htext
  exact ⟨_, bytes, by rw [document, hs]; rfl, hbytes⟩

end Json

end Assay
