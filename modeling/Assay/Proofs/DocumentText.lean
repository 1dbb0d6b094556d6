import Assay.Json.Writer
import Assay.Proofs.FileText
import Assay.Proofs.TextParts

/-!
# The text of documents

A document is made of ASCII characters and of the characters of its texts, whose carriage returns are
escaped. Its text is therefore read from a file as it was written there (`written_of_document`). A value has no
document only if one of its parts has no form in it (`isUnwritten_of_document`).
-/

namespace Assay

/-! ## Numbers -/

/-- A text of ASCII characters without carriage returns. -/
def IsPlain (s : String) : Prop := ∀ c ∈ s.toList, c.toNat < 0x80 ∧ c ≠ '\r'

section
variable {s t : String}

theorem IsPlain.written {whole : Bool} (h : IsPlain s) : Text.Written whole s.toList := .of_ascii h

theorem IsPlain.append (hs : IsPlain s) (ht : IsPlain t) : IsPlain (s ++ t) := by
  intro c hc
  rw [String.toList_append] at hc
  exact (List.mem_append.1 hc).elim (hs c) (ht c)

theorem isPlain_ofList {cs : List Char} : IsPlain (String.ofList cs) ↔ ∀ c ∈ cs, c.toNat < 0x80 ∧ c ≠ '\r' := by
  rw [IsPlain, String.toList_ofList]

theorem isPlain_of_all (h : (s.toList.all fun c => c.toNat < 0x80 && c != '\r') = true) : IsPlain s := by
  simpa [IsPlain] using h

theorem isPlain_of_isDigit {c : Char} (h : c.isDigit = true) : c.toNat < 0x80 ∧ c ≠ '\r' := by
  have hc := Text.toNat_of_isDigit h
  refine ⟨by omega, ?_⟩
  rintro rfl
  exact absurd h (by decide)

theorem isPlain_nat (n : ℕ) : IsPlain (toString n) := fun c hc => isPlain_of_isDigit (Text.isDigit_nat c hc)

theorem isPlain_int (n : ℤ) : IsPlain (toString n) := by
  cases n with
  | ofNat n => exact isPlain_nat n
  | negSucc n =>
    have hminus : IsPlain "-" := isPlain_of_all rfl
    exact hminus.append (isPlain_nat (n + 1))

theorem isPlain_zeros (n : ℕ) : IsPlain (Layout.zeros n) := by
  rw [Layout.zeros, isPlain_ofList]
  intro c hc
  rw [List.eq_of_mem_replicate hc]
  decide

theorem IsPlain.part (hs : IsPlain s) {cs : List Char} (h : cs ⊆ s.toList) : IsPlain (String.ofList cs) :=
  isPlain_ofList.2 fun c hc => hs c (h hc)

theorem isPlain_exponent (least : ℕ) (e : ℤ) : IsPlain (Layout.exponent least e) := by
  have hsign : IsPlain (if e < 0 then "-" else "+") := by
    split <;> exact isPlain_of_all rfl
  exact (hsign.append (isPlain_zeros _)).append (isPlain_nat _)

theorem isPlain_render (f : Layout) (d : Digits) : IsPlain (f.render d) := by
  have hdigits := isPlain_nat d.digits
  have hpoint : IsPlain "." := isPlain_of_all rfl
  have htake : ∀ n, IsPlain (String.ofList ((toString d.digits).toList.take n)) := fun n =>
    hdigits.part (List.take_subset _ _)
  have hdrop : ∀ n, IsPlain (String.ofList ((toString d.digits).toList.drop n)) := fun n =>
    hdigits.part (List.drop_subset _ _)
  unfold Layout.render
  extract_lets digits point first rest
  split
  · exact isPlain_of_all rfl
  split
  · split
    · have hzero : IsPlain "0." := isPlain_of_all rfl
      exact (hzero.append (isPlain_zeros _)).append hdigits
    split
    · have hend : IsPlain ".0" := isPlain_of_all rfl
      exact (hdigits.append (isPlain_zeros _)).append hend
    · exact ((htake _).append hpoint).append (hdrop _)
  · have hmark : IsPlain "e" := isPlain_of_all rfl
    have hrest : IsPlain (if rest.isEmpty then "" else "." ++ rest) := by
      split
      · exact isPlain_of_all rfl
      · exact hpoint.append (hdrop 1)
    exact (((htake 1).append hrest).append hmark).append (isPlain_exponent _ _)

theorem isPlain_float (x : Float) : IsPlain (Json.float x) := by
  unfold Json.float
  split
  · exact isPlain_of_all rfl
  · split <;> exact isPlain_of_all rfl
  · next negative m e hx =>
    have hminus : IsPlain "-" := isPlain_of_all rfl
    have hbody : IsPlain (if m = 0 then "0.0" else Binary64.plainLayout.render (Shortest.digits m e)) := by
      split
      · exact isPlain_of_all rfl
      · exact isPlain_render _ _
    rw [Binary64.toText, hx]
    simp only
    split
    · exact hminus.append hbody
    · exact hbody

end

/-! ## Texts -/

section
variable {whole : Bool}

theorem Text.written_hex (width n : ℕ) : Written whole (hex width n) := by
  have digit : ∀ d < 16, (hexDigit d).toNat < 0x80 ∧ hexDigit d ≠ '\r' := by decide
  induction width generalizing n with
  | zero => exact .nil
  | succ width ih =>
    refine (ih (n / 16)).append (.of_ascii fun c hc => ?_)
    rw [List.mem_singleton.1 hc]
    exact digit _ (Nat.mod_lt _ (by decide))

namespace Json

open Text

theorem written_unitEscape (u : ℕ) : Written whole (unitEscape u) :=
  (.of_all rfl : Written whole ['\\', 'u']).append (written_hex 4 u)

theorem written_codePointEscape (n : ℕ) : Written whole (codePointEscape n) := by
  unfold codePointEscape
  split
  · exact written_unitEscape _
  · exact (written_unitEscape _).append (written_unitEscape _)

/-- A code point inside a string is escaped if it is a carriage return. -/
theorem written_stringUnit (ascii : Bool) {u : ℕ} (hu : u < 0x110000)
    (hw : whole = true → Text.isSurrogate u = false) : Written whole (stringUnit ascii u) := by
  unfold stringUnit
  split
  iterate 7 exact .of_all rfl
  split
  · exact written_unitEscape u
  split
  · exact written_codePointEscape u
  · exact .ofUnit hu (by omega) hw

theorem written_string (ascii : Bool) {s : String}
    (hw : whole = true → ∀ u ∈ units s.toList, Text.isSurrogate u = false) :
    Written whole (string ascii s).toList := by
  have quote : Written whole ['"'] := .of_all rfl
  have inside : Written whole ((units s.toList).flatMap (stringUnit ascii)) :=
    .flatMap fun u hu => written_stringUnit ascii (lt_of_mem_units hu) fun h => hw h u hu
  simp only [string, String.toList_append, String.toList_ofList]
  exact (quote.append inside).append quote

/-! ## Values -/

variable {style : Style} {depth : ℕ} {s : String}

/-- What stands between tokens is plain. -/
def Style.IsPlain (style : Style) : Prop := Assay.IsPlain style.itemGap ∧ Assay.IsPlain style.keyGap

theorem Style.isPlain_file : Style.file.IsPlain := ⟨isPlain_of_all rfl, isPlain_of_all rfl⟩

theorem written_intercalate {gap : String} {items : List String} (hgap : Written whole gap.toList)
    (h : ∀ s ∈ items, Written whole s.toList) : Written whole (gap.intercalate items).toList := by
  rw [String.toList_intercalate]
  induction items with
  | nil => exact .nil
  | cons s items ih =>
    have hs := h s (by simp)
    cases items with
    | nil => simpa using hs
    | cons t items =>
      have ih := ih fun u hu => h u (by simp [hu])
      rw [List.map_cons, List.map_cons, List.intercalate_cons_cons]
      exact (hs.append hgap).append ih

theorem written_newline (n : ℕ) : Written whole ("\n" ++ String.ofList (List.replicate n ' ')).toList := by
  have hline : IsPlain "\n" := isPlain_of_all rfl
  refine (hline.append (isPlain_ofList.2 fun c hc => ?_)).written
  rw [List.eq_of_mem_replicate hc]
  decide

theorem written_enclose (hs : style.IsPlain) {opening closing : String} (ho : IsPlain opening) (hc : IsPlain closing)
    {items : List String} (h : ∀ s ∈ items, Written whole s.toList) :
    Written whole (enclose style depth opening closing items).toList := by
  unfold enclose
  split
  · exact (ho.append hc).written
  split
  · simp only [String.toList_append]
    exact (ho.written.append (written_intercalate hs.1.written h)).append hc.written
  · extract_lets newline
    have hn : ∀ n, Written whole (newline n).toList := fun n => written_newline _
    have hgap : Written whole (style.itemGap ++ newline (depth + 1)).toList := by
      rw [String.toList_append]
      exact hs.1.written.append (hn _)
    simp only [String.toList_append]
    exact (((ho.written.append (hn _)).append (written_intercalate hgap h)).append (hn _)).append hc.written

/-- Sorting fields loses none. -/
theorem perm_of_sortFields {fields sorted : List (Value × String)} (h : sortFields fields = .ok sorted) :
    sorted.Perm fields := by
  unfold sortFields at h
  split at h
  · cases h
    exact .refl _
  · split at h
    · cases h
      exact List.mergeSort_perm _ _
    · cases h

theorem written_member (hs : style.IsPlain) {field : Value × String} (hf : Written whole field.2.toList)
    (hw : whole = true → ∀ key, keyText field.1 = .ok key → ∀ u ∈ units key.toList, Text.isSurrogate u = false)
    (h : member style field = .ok s) : Written whole s.toList := by
  obtain ⟨key, hkey, h⟩ := bind_eq_ok.1 h
  rw [← pure_eq_ok.1 h]
  simp only [String.toList_append]
  exact ((written_string _ fun hwhole => hw hwhole key hkey).append hs.2.written).append hf

theorem written_written {n : ℤ} (h : (Numeral.written n).mapError Fault.numeral = .ok s) :
    Written whole s.toList := by
  have h := mapError_eq_ok.1 h
  unfold Numeral.written at h
  split at h
  · cases h
  · cases h
    exact (isPlain_int n).written

mutual

/-- The text of a value. -/
theorem written_render (hs : style.IsPlain) (v : Value) : ∀ {depth : ℕ} {s : String},
    render style depth v = .ok s → Written false s.toList := by
  match v with
  | .null =>
    intro depth s h
    rw [render] at h
    cases h
    exact .of_all rfl
  | .bool b =>
    intro depth s h
    rw [render] at h
    cases h
    cases b <;> exact .of_all rfl
  | .int n =>
    intro depth s h
    rw [render] at h
    exact written_written h
  | .float x =>
    intro depth s h
    rw [render] at h
    cases h
    exact (isPlain_float x).written
  | .text s =>
    intro depth s h
    rw [render] at h
    cases h
    exact written_string _ nofun
  | .list items =>
    intro depth s h
    rw [render] at h
    obtain ⟨texts, htexts, h⟩ := bind_eq_ok.1 h
    cases h
    exact written_enclose hs (isPlain_of_all rfl) (isPlain_of_all rfl) (written_renderItems hs items htexts)
  | .tuple items =>
    intro depth s h
    rw [render] at h
    obtain ⟨texts, htexts, h⟩ := bind_eq_ok.1 h
    cases h
    exact written_enclose hs (isPlain_of_all rfl) (isPlain_of_all rfl) (written_renderItems hs items htexts)
  | .map es =>
    intro depth s h
    rw [render] at h
    obtain ⟨fields, hfields, h⟩ := bind_eq_ok.1 h
    obtain ⟨sorted, hsorted, h⟩ := bind_eq_ok.1 h
    obtain ⟨members, hmembers, h⟩ := bind_eq_ok.1 h
    cases h
    refine written_enclose hs (isPlain_of_all rfl) (isPlain_of_all rfl) fun s hmem => ?_
    obtain ⟨f, hf, hfs⟩ := (mem_of_mapM_eq_ok hmembers s).1 hmem
    exact written_member hs (written_renderFields hs es hfields f ((perm_of_sortFields hsorted).mem_iff.1 hf)) nofun hfs
  | .date _ | .moment _ | .bytes _ | .set _ | .ref _ | .looped _ _ =>
    intro depth s h
    rw [render] at h
    cases h

theorem written_renderItems (hs : style.IsPlain) : ∀ (vs : List Value) {depth : ℕ} {texts : List String},
    renderItems style depth vs = .ok texts → ∀ s ∈ texts, Written false s.toList
  | [], _, _, h => by
    rw [renderItems] at h
    cases h
    simp
  | v :: vs, depth, _, h => by
    rw [renderItems] at h
    obtain ⟨s, hv, h⟩ := bind_eq_ok.1 h
    obtain ⟨texts, htexts, h⟩ := bind_eq_ok.1 h
    cases h
    exact List.forall_mem_cons.2 ⟨written_render hs v hv, written_renderItems hs vs htexts⟩

theorem written_renderFields (hs : style.IsPlain) : ∀ (es : List (Value × Value)) {depth : ℕ}
    {fields : List (Value × String)}, renderFields style depth es = .ok fields → ∀ f ∈ fields, Written false f.2.toList
  | [], _, _, h => by
    rw [renderFields] at h
    cases h
    simp
  | (k, v) :: es, depth, _, h => by
    rw [renderFields] at h
    obtain ⟨s, hv, h⟩ := bind_eq_ok.1 h
    obtain ⟨fields, hfields, h⟩ := bind_eq_ok.1 h
    cases h
    exact List.forall_mem_cons.2 ⟨written_render hs v hv, written_renderFields hs es hfields⟩

end

/-- The text of a document is read from a file as it was written. -/
theorem written_of_document {v : Value} (h : document v = .ok s) : Written false s.toList := by
  have hs := Style.isPlain_file
  obtain ⟨t, ht, h⟩ := bind_eq_ok.1 h
  cases h
  rw [String.toList_append]
  exact (written_render hs v ht).append (.of_all rfl)

/-! ## Documents that are not written -/

/-- A fault of a value that no document can hold. -/
inductive IsUnwritten : Fault → Prop
  | wrongKind : IsUnwritten .wrongKind
  | numeral (e : NumeralError) : IsUnwritten (.numeral e)

variable {e : Fault}

theorem isUnwritten_of_written {n : ℤ} (h : (Numeral.written n).mapError Fault.numeral = .error e) : IsUnwritten e := by
  obtain ⟨f, -, rfl⟩ := mapError_eq_error.1 h
  exact .numeral f

theorem isUnwritten_of_keyText {v : Value} (h : keyText v = .error e) : IsUnwritten e := by
  unfold keyText at h
  split at h
  case h_4 => exact isUnwritten_of_written h
  all_goals cases h
  exact .wrongKind

theorem isUnwritten_of_sortFields {fields : List (Value × String)} (h : sortFields fields = .error e) : IsUnwritten e := by
  unfold sortFields at h
  split at h
  · cases h
  split at h <;> cases h
  exact .wrongKind

theorem isUnwritten_of_members {fields : List (Value × String)} (h : fields.mapM (member style) = .error e) :
    IsUnwritten e := by
  induction fields with
  | nil => cases h
  | cons f fields ih =>
    rw [List.mapM_cons] at h
    rcases bind_eq_error.1 h with h | ⟨text, -, h⟩
    · exact isUnwritten_of_keyText (eq_error_of_bind h fun _ => ⟨_, rfl⟩)
    · exact ih (eq_error_of_bind h fun _ => ⟨_, rfl⟩)

mutual

theorem isUnwritten_of_render (v : Value) : ∀ {depth : ℕ}, render style depth v = .error e → IsUnwritten e := by
  match v with
  | .null | .bool _ | .float _ | .text _ =>
    intro depth h
    rw [render] at h
    cases h
  | .int n =>
    intro depth h
    rw [render] at h
    exact isUnwritten_of_written h
  | .list items | .tuple items =>
    intro depth h
    rw [render] at h
    exact isUnwritten_of_renderItems items (eq_error_of_bind h fun _ => ⟨_, rfl⟩)
  | .map es =>
    intro depth h
    rw [render] at h
    rcases bind_eq_error.1 h with h | ⟨fields, -, h⟩
    · exact isUnwritten_of_renderFields es h
    rcases bind_eq_error.1 h with h | ⟨sorted, -, h⟩
    · exact isUnwritten_of_sortFields h
    · exact isUnwritten_of_members (eq_error_of_bind h fun _ => ⟨_, rfl⟩)
  | .date _ | .moment _ | .bytes _ | .set _ | .ref _ | .looped _ _ =>
    intro depth h
    rw [render] at h
    cases h
    exact .wrongKind

theorem isUnwritten_of_renderItems : ∀ (vs : List Value) {depth : ℕ},
    renderItems style depth vs = .error e → IsUnwritten e
  | [], _, h => by
    rw [renderItems] at h
    cases h
  | v :: vs, _, h => by
    rw [renderItems] at h
    rcases bind_eq_error.1 h with h | ⟨s, -, h⟩
    · exact isUnwritten_of_render v h
    · exact isUnwritten_of_renderItems vs (eq_error_of_bind h fun _ => ⟨_, rfl⟩)

theorem isUnwritten_of_renderFields : ∀ (es : List (Value × Value)) {depth : ℕ},
    renderFields style depth es = .error e → IsUnwritten e
  | [], _, h => by
    rw [renderFields] at h
    cases h
  | (k, v) :: es, _, h => by
    rw [renderFields] at h
    rcases bind_eq_error.1 h with h | ⟨s, -, h⟩
    · exact isUnwritten_of_render v h
    · exact isUnwritten_of_renderFields es (eq_error_of_bind h fun _ => ⟨_, rfl⟩)

end

theorem isUnwritten_of_document {v : Value} (h : document v = .error e) : IsUnwritten e := by
  exact isUnwritten_of_render v (eq_error_of_bind h fun _ => ⟨_, rfl⟩)

end Json

end

end Assay
