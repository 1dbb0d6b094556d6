import Assay.Text.Blank
import Assay.Text.Digit
import Assay.Text.Line
import Mathlib

/-!
# Ends, digits and lines of a text

Trimming leaves a text alone exactly if it drops nothing at either end, which its first and its last character
decide (`trim_eq_self_iff`), and it takes away blanks that were put around such a text (`trim_enclosed`). A run of
characters ends at the first that is of another kind (`span_append`), as the digits of a number do. A line ends at
the first line end: a text without one is a single line (`lines_eq_singleton`), and lines that are joined are found
again (`lines_intercalate`).
-/

namespace Assay.Text

variable {p : Char → Bool} {cs before after : List Char} {c : Char} {n : ℕ}

/-! ## The ends of a text -/

/-- Nothing is dropped in front of a text exactly if its first character may stay. -/
theorem dropWhile_eq_self_iff : cs.dropWhile p = cs ↔ ∀ c, cs.head? = some c → p c = false := by
  cases cs with
  | nil => simp
  | cons c rest =>
    rw [List.dropWhile_eq_self_iff]
    simp

theorem trimStart_eq_self_iff : trimStart cs = cs ↔ ∀ c, cs.head? = some c → isBlank c = false :=
  dropWhile_eq_self_iff

/-- Nothing is dropped behind a text exactly if its last character may stay. -/
theorem dropEnd_eq_self_iff : dropEnd p cs = cs ↔ ∀ c, cs.getLast? = some c → p c = false := by
  rw [dropEnd, ← List.reverse_inj, List.reverse_reverse, dropWhile_eq_self_iff, List.head?_reverse]

/-- Nothing is dropped before a character that stays. -/
theorem dropEnd_append_cons (h : p c = false) : dropEnd p (before ++ c :: after) = before ++ c :: dropEnd p after := by
  have hreverse : (before ++ c :: after).reverse = after.reverse ++ c :: before.reverse := by simp
  rw [dropEnd, dropEnd, hreverse, List.dropWhile_append]
  split
  next hempty =>
    rw [List.isEmpty_iff.1 hempty, List.dropWhile_cons_of_neg (by simp [h])]
    simp
  next => simp

theorem dropEnd_cons (h : p c = false) : dropEnd p (c :: after) = c :: dropEnd p after := by
  rw [← List.nil_append (c :: after), dropEnd_append_cons h, List.nil_append]

theorem trimEnd_append_cons (h : isBlank c = false) : trimEnd (before ++ c :: after) = before ++ c :: trimEnd after :=
  dropEnd_append_cons h

theorem prefix_dropEnd (p : Char → Bool) (cs : List Char) : dropEnd p cs <+: cs := by
  have hsuffix := List.reverse_prefix.2 (List.dropWhile_suffix p (l := cs.reverse))
  rwa [List.reverse_reverse] at hsuffix

theorem trimEnd_eq_self_iff : trimEnd cs = cs ↔ ∀ c, cs.getLast? = some c → isBlank c = false :=
  dropEnd_eq_self_iff

/-- A text at whose end nothing is blank keeps its end behind any other. -/
theorem trimEnd_append (hne : cs ≠ []) (h : trimEnd cs = cs) : trimEnd (before ++ cs) = before ++ cs := by
  refine trimEnd_eq_self_iff.2 fun c hc => trimEnd_eq_self_iff.1 h c ?_
  rwa [List.getLast?_append_of_ne_nil _ hne] at hc

/-- A text at whose start nothing is blank keeps its start before any other. -/
theorem trimStart_append (hne : cs ≠ []) (h : trimStart cs = cs) : trimStart (cs ++ after) = cs ++ after := by
  refine trimStart_eq_self_iff.2 fun c hc => trimStart_eq_self_iff.1 h c ?_
  rwa [List.head?_append_of_ne_nil _ hne] at hc

theorem trim_cons (h : isBlank c = false) : trim (c :: after) = c :: trimEnd after := by
  rw [trim, trimStart, List.dropWhile_cons_of_neg (by simp [h])]
  exact dropEnd_cons h

/-- A text is trimmed exactly if it is at both ends. -/
theorem trim_eq_self_iff : trim cs = cs ↔ trimStart cs = cs ∧ trimEnd cs = cs := by
  constructor
  · intro h
    have hstart : trimStart cs = cs := by
      refine (List.dropWhile_suffix isBlank).eq_of_length_le ?_
      calc cs.length = (trim cs).length := by rw [h]
        _ ≤ (trimStart cs).length := (List.rdropWhile_prefix isBlank _).length_le
    refine ⟨hstart, ?_⟩
    rwa [trim, hstart] at h
  · rintro ⟨hstart, hend⟩
    rw [trim, hstart, hend]

/-- Blanks around a text without any at its ends are trimmed away. -/
theorem trim_enclosed (hbefore : isAllBlank before = true) (hafter : isAllBlank after = true) (hne : cs ≠ [])
    (start : trimStart cs = cs) (ending : trimEnd cs = cs) : trim (before ++ cs ++ after) = cs := by
  have hstart : trimStart (before ++ cs ++ after) = cs ++ after := by
    rw [List.append_assoc, trimStart, List.dropWhile_append_of_pos (List.all_eq_true.1 hbefore)]
    exact trimStart_append hne start
  have hreverse : ∀ c ∈ after.reverse, isBlank c = true := fun c hc =>
    List.all_eq_true.1 hafter c (List.mem_reverse.1 hc)
  rw [trim, hstart, trimEnd, List.reverse_append, List.dropWhile_append_of_pos hreverse]
  exact ending

theorem trimEnd_trimEnd (cs : List Char) : trimEnd (trimEnd cs) = trimEnd cs := by
  rw [trimEnd, trimEnd, List.reverse_reverse, List.dropWhile_idempotent]

/-- What is trimmed at its end already is trimmed to the same text. -/
theorem trim_trimEnd (cs : List Char) : trim (trimEnd cs) = trim cs := by
  have hblanks : ∀ c ∈ cs.takeWhile isBlank, isBlank c = true := fun c => List.mem_takeWhile_imp
  have hcs : cs.takeWhile isBlank ++ trimStart cs = cs := List.takeWhile_append_dropWhile
  have hstart : trimStart (trimStart cs) = trimStart cs := List.dropWhile_idempotent _ _
  unfold trim
  cases hrest : trimStart cs with
  | nil =>
    have hall : ∀ c ∈ trimEnd cs, isBlank c = true := fun c hc =>
      List.dropWhile_eq_nil_iff.1 hrest c ((prefix_dropEnd isBlank cs).subset hc)
    rw [trimStart, List.dropWhile_eq_nil_iff.2 hall]
  | cons c rest =>
    rw [hrest] at hcs hstart
    have hc : isBlank c = false := trimStart_eq_self_iff.1 hstart c rfl
    have hend : trimEnd cs = cs.takeWhile isBlank ++ c :: trimEnd rest := by
      conv_lhs => rw [← hcs]
      exact trimEnd_append_cons hc
    have hkept : trimStart (c :: trimEnd rest) = c :: trimEnd rest := List.dropWhile_cons_of_neg (by simp [hc])
    have hcons : ∀ ds, trimEnd (c :: ds) = c :: trimEnd ds := fun ds => dropEnd_cons hc
    rw [hend, trimStart, List.dropWhile_append_of_pos hblanks, ← trimStart, hkept, hcons, hcons, trimEnd_trimEnd]

/-! ## Runs of digits -/

/-- A run of characters of one kind ends where the next is of another. -/
theorem span_append (hrun : ∀ c ∈ before, p c = true) (hstop : ∀ c, after.head? = some c → p c = false) :
    (before ++ after).span p = (before, after) := by
  have htake : after.takeWhile p = [] := by
    cases after with
    | nil => rfl
    | cons c rest => simp [hstop c rfl]
  rw [List.span_eq_takeWhile_dropWhile, List.takeWhile_append_of_pos hrun, List.dropWhile_append_of_pos hrun,
    htake, List.append_nil, dropWhile_eq_self_iff.2 hstop]

theorem toNat_of_isDigit (h : c.isDigit = true) : 48 ≤ c.toNat ∧ c.toNat ≤ 57 := by
  simpa [Char.isDigit, UInt32.le_iff_toNat_le] using h

theorem digitValue?_of_isDigit (h : c.isDigit = true) : digitValue? c = some (c.toNat - 48) := by
  simp [digitValue?, toNat_of_isDigit h]

theorem isDecimal_of_isDigit (h : c.isDigit = true) : isDecimal c = true := by
  rw [isDecimal, digitValue?_of_isDigit h]
  rfl

theorem isBlank_of_isDigit (h : c.isDigit = true) : isBlank c = false := by
  have hrange := toNat_of_isDigit h
  simp [isBlank]
  omega

/-- Digits are not trimmed. -/
theorem trim_digits (h : ∀ c ∈ cs, c.isDigit = true) : trim cs = cs :=
  trim_eq_self_iff.2
    ⟨trimStart_eq_self_iff.2 fun c hc => isBlank_of_isDigit (h c (List.mem_of_head? hc)),
      trimEnd_eq_self_iff.2 fun c hc => isBlank_of_isDigit (h c (List.mem_of_getLast? hc))⟩

theorem toList_nat : (toString n).toList = Nat.toDigits 10 n := String.toList_ofList

theorem toList_nat_ne : (toString n).toList ≠ [] := toList_nat ▸ Nat.toDigits_ne_nil

theorem toList_nat_injective : Function.Injective fun n : ℕ => (toString n).toList := fun _ _ h =>
  Nat.repr_inj.1 (String.toList_inj.1 h)

/-- A number is written with digits of ASCII. -/
theorem isDigit_nat : ∀ c ∈ (toString n).toList, c.isDigit = true := fun _ hc =>
  Nat.isDigit_of_mem_toDigits (by decide) (Nat.le_refl 10) (toList_nat ▸ hc)

theorem isDecimal_nat : ∀ c ∈ (toString n).toList, isDecimal c = true := fun c hc =>
  isDecimal_of_isDigit (isDigit_nat c hc)

/-! ## Lines -/

/-- The ends of lines are blank. -/
theorem isLineEnd_of_not_blank (h : isBlank c = false) : isLineEnd c = false := by
  simp [isBlank] at h
  simp [isLineEnd]
  omega

theorem linesFrom_of_no_lineEnd : ∀ {cs line : List Char}, (∀ c ∈ cs, isLineEnd c = false) → line ++ cs ≠ [] →
    linesFrom line cs = [line.reverse ++ cs]
  | [], line, _, hne => by
    have hline : line.isEmpty = false := by simpa using hne
    simp [linesFrom, hline]
  | c :: cs, line, h, _ => by
    have hc : isLineEnd c = false := h c (List.mem_cons_self ..)
    have hrest : linesFrom (c :: line) cs = [(c :: line).reverse ++ cs] :=
      linesFrom_of_no_lineEnd (fun d hd => h d (List.mem_cons_of_mem _ hd)) (by simp)
    -- A carriage return would be a line end.
    have hreturn : c ≠ '\r' := by
      rintro rfl
      exact absurd hc (by decide)
    rw [linesFrom.eq_3 _ _ _ (fun _ hr _ => hreturn hr), if_neg (by simp [hc]), hrest]
    simp

/-- A text without a line end is one line. -/
theorem lines_eq_singleton (hne : cs ≠ []) (h : ∀ c ∈ cs, isLineEnd c = false) : lines cs = [cs] :=
  linesFrom_of_no_lineEnd h hne

theorem linesFrom_append_newline : ∀ {cs line : List Char}, (∀ c ∈ cs, isLineEnd c = false) →
    linesFrom line (cs ++ '\n' :: after) = (line.reverse ++ cs) :: lines after
  | [], line, _ => by
    rw [List.nil_append, linesFrom.eq_3 _ _ _ (fun _ hr _ => absurd hr (by decide)), if_pos (by decide),
      List.append_nil, lines]
  | c :: cs, line, h => by
    have hc : isLineEnd c = false := h c (List.mem_cons_self ..)
    have hreturn : c ≠ '\r' := by
      rintro rfl
      exact absurd hc (by decide)
    rw [List.cons_append, linesFrom.eq_3 _ _ _ (fun _ hr _ => hreturn hr), if_neg (by simp [hc]),
      linesFrom_append_newline fun d hd => h d (List.mem_cons_of_mem _ hd)]
    simp

/-- Lines that are joined by line feeds are found again. An empty one at the end is no line of its own. -/
theorem lines_intercalate : ∀ {ls : List (List Char)}, (∀ l ∈ ls, ∀ c ∈ l, isLineEnd c = false) →
    ∃ tail, ls = lines (['\n'].intercalate ls) ++ tail ∧ ∀ l ∈ tail, l = []
  | [], _ => ⟨[], rfl, by simp⟩
  | [l], h => by
    rw [List.intercalate_singleton]
    by_cases hl : l = []
    · exact ⟨[[]], by rw [hl]; rfl, by simp⟩
    · exact ⟨[], by rw [lines_eq_singleton hl (h l List.mem_cons_self), List.append_nil], by simp⟩
  | l :: l' :: ls, h => by
    obtain ⟨tail, heq, htail⟩ := lines_intercalate fun k hk => h k (List.mem_cons_of_mem _ hk)
    refine ⟨tail, ?_, htail⟩
    rw [List.intercalate_cons_cons, List.append_assoc, List.singleton_append, lines,
      linesFrom_append_newline (h l List.mem_cons_self), List.reverse_nil, List.nil_append, List.cons_append, ← heq]

end Assay.Text
