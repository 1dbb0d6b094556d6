import Assay.Json.Reader
import Assay.Proofs.DocumentText

/-!
# Reading back tokens

A string is read back from its quotes (`stringAt_string`): a character is either escaped and read back from
its escape, or stands as it is held. A number is read back from its digits up to the comma or the line end
behind it (`numberAt_append`, `numberAt_int`).
-/

namespace Assay

/-! ## Strings -/

namespace Text

/-- Whether a text is made of the code points in it, each as it is held. -/
def isHeld (s : String) : Bool := ofUnits (units s.toList) == s.toList

theorem hexValue?_hexDigit {n : ℕ} (h : n < 16) : hexValue? (hexDigit n) = some n := by
  have hall : ∀ n < 16, hexValue? (hexDigit n) = some n := by decide
  exact hall n h

end Text

namespace Json

open Text

section
variable {opening rest cs out : List Char} {bound u : ℕ}

theorem readString_raw {c : Char} (hquote : c ≠ '"') (hslash : c ≠ '\\') (hlow : 0x20 ≤ c.toNat)
    (h : readString opening bound rest = .ok (cs, out)) :
    readString opening (bound + 1) (c :: rest) = .ok (c :: cs, out) := by
  rw [readString.eq_7 _ _ _ _ hquote hslash, if_neg (by omega), h]
  rfl

theorem readString_letter {c e : Char} (hu : c ≠ 'u') (he : letterEscape? c = some e)
    (h : readString opening bound rest = .ok (cs, out)) :
    readString opening (bound + 1) ('\\' :: c :: rest) = .ok (e :: cs, out) := by
  rw [readString.eq_6 _ _ _ _ hu, he]
  simp only [h]
  rfl

theorem unit?_hex (hu : u < 0x10000) : unit? (hex 4 u ++ rest) = some (u, rest) := by
  have hhex : hex 4 u = [hexDigit (u / 16 / 16 / 16 % 16), hexDigit (u / 16 / 16 % 16), hexDigit (u / 16 % 16),
    hexDigit (u % 16)] := rfl
  have digit : ∀ n, hexValue? (hexDigit (n % 16)) = some (n % 16) := fun n =>
    hexValue?_hexDigit (Nat.mod_lt n (by decide))
  rw [hhex]
  simp only [List.cons_append, List.nil_append, unit?, digit, bind, Option.bind, pure]
  congr 2
  omega

theorem readString_unitEscape (hu : u < 0xD800) (hrest : rest ≠ [])
    (h : readString opening bound rest = .ok (cs, out)) :
    readString opening (bound + 1) (unitEscape u ++ rest) = .ok (ofUnit u ++ cs, out) := by
  have hlen : ¬ (hex 4 u ++ rest).length ≤ 4 := by
    have hpos := List.length_pos_iff.2 hrest
    rw [List.length_append, hex_length]
    omega
  have hhigh : isHigh u = false := by
    simp only [isHigh, Bool.and_eq_false_iff, decide_eq_false_iff_not]
    omega
  rw [unitEscape, List.cons_append, List.cons_append, readString.eq_5, if_neg hlen, unit?_hex (by omega)]
  simp only [hhigh, h]
  rfl

theorem eq_of_ofNat {c : Char} (h : Char.ofNat u = c) (hc : c ≠ '\x00') : u = c.toNat := by
  by_cases hu : u.isValidChar
  · rw [← h, toNat_ofNat hu]
  · rw [Char.ofNat, dif_neg hu] at h
    exact absurd h.symm hc

/-- How a code point stands in a string: as a letter behind a backslash, as a unit escape, or as it is
held. -/
theorem stringUnit_cases (hu : u < 0x110000) :
    (∃ c e, stringUnit false u = ['\\', c] ∧ c ≠ 'u' ∧ letterEscape? c = some e ∧ ofUnit u = [e]) ∨
      (stringUnit false u = unitEscape u ∧ u < 0x20) ∨
      (stringUnit false u = ofUnit u ∧ ∀ c ∈ ofUnit u, c ≠ '"' ∧ c ≠ '\\' ∧ 0x20 ≤ c.toNat) := by
  have letter : ∀ {c e : Char}, Char.ofNat u = e → e ≠ '\x00' → e.toNat < 0x80 → c ≠ 'u' → letterEscape? c = some e →
      ∃ c' e', ['\\', c] = ['\\', c'] ∧ c' ≠ 'u' ∧ letterEscape? c' = some e' ∧ ofUnit u = [e'] := by
    intro c e he hzero hlow hc hletter
    have hue := eq_of_ofNat he hzero
    exact ⟨c, e, rfl, hc, hletter, hue ▸ ofUnit_ascii hlow⟩
  unfold stringUnit
  split
  next he => exact .inl (letter he (by decide) (by decide) (by decide) rfl)
  next he => exact .inl (letter he (by decide) (by decide) (by decide) rfl)
  next he => exact .inl (letter he (by decide) (by decide) (by decide) rfl)
  next he => exact .inl (letter he (by decide) (by decide) (by decide) rfl)
  next he => exact .inl (letter he (by decide) (by decide) (by decide) rfl)
  next he => exact .inl (letter he (by decide) (by decide) (by decide) rfl)
  next he => exact .inl (letter he (by decide) (by decide) (by decide) rfl)
  next hquote hslash _ _ _ _ _ =>
    right
    by_cases hlow : u < 0x20
    · exact .inl ⟨if_pos hlow, hlow⟩
    · refine .inr ⟨by rw [if_neg hlow, Bool.false_and, if_neg Bool.false_ne_true], fun c hc => ?_⟩
      rcases eq_of_mem_ofUnit hu hc with ⟨rfl, hown⟩ | hlarge
      · exact ⟨hquote, hslash, by omega⟩
      · refine ⟨?_, ?_, by omega⟩ <;>
        · rintro rfl
          exact absurd hlarge (by decide)

/-- A code point is read back from how it stands in a string; a bound that was enough stays enough. -/
theorem readString_stringUnit (hu : u < 0x110000) (hrest : rest ≠ [])
    (hb : (stringUnit false u ++ rest).length ≤ bound) :
    ∃ bound', rest.length ≤ bound' ∧ ∀ cs out, readString opening bound' rest = .ok (cs, out) →
      readString opening bound (stringUnit false u ++ rest) = .ok (ofUnit u ++ cs, out) := by
  rcases stringUnit_cases hu with ⟨c, e, hs, hc, he, hheld⟩ | ⟨hs, hlow⟩ | ⟨hs, hraw⟩
  · rw [hs] at hb ⊢
    simp only [List.cons_append, List.nil_append, List.length_cons] at hb
    obtain ⟨bound, rfl⟩ := Nat.exists_eq_succ_of_ne_zero (by omega : bound ≠ 0)
    exact ⟨bound, by omega, fun cs out h => hheld ▸ readString_letter hc he h⟩
  · rw [hs] at hb ⊢
    simp only [unitEscape, List.length_append, List.length_cons, hex_length] at hb
    obtain ⟨bound, rfl⟩ := Nat.exists_eq_succ_of_ne_zero (by omega : bound ≠ 0)
    exact ⟨bound, by omega, fun cs out h => readString_unitEscape (by omega) hrest h⟩
  · rw [hs] at hb ⊢
    clear hs hu
    generalize ofUnit u = held at hb hraw ⊢
    induction held generalizing bound with
    | nil => exact ⟨bound, hb, fun cs out h => h⟩
    | cons c held ih =>
      simp only [List.cons_append, List.length_cons] at hb
      obtain ⟨bound, rfl⟩ := Nat.exists_eq_succ_of_ne_zero (by omega : bound ≠ 0)
      have hrest : (held ++ rest).length ≤ bound := by omega
      obtain ⟨bound', hb', hstep⟩ := ih hrest fun d hd => hraw d (by simp [hd])
      obtain ⟨hquote, hslash, hlow⟩ := hraw c (by simp)
      exact ⟨bound', hb', fun cs out h => readString_raw hquote hslash hlow (hstep cs out h)⟩

/-- The code points of a string are read back up to its closing quote. -/
theorem readString_units {us : List ℕ} (hus : ∀ u ∈ us, u < 0x110000)
    (hb : (us.flatMap (stringUnit false) ++ '"' :: rest).length ≤ bound) :
    readString opening bound (us.flatMap (stringUnit false) ++ '"' :: rest) = .ok (ofUnits us, rest) := by
  induction us generalizing bound with
  | nil =>
    cases bound with
    | zero => cases hb
    | succ bound => exact readString.eq_3 ..
  | cons u us ih =>
    rw [List.flatMap_cons, List.append_assoc] at hb ⊢
    obtain ⟨bound', hb', hstep⟩ := @readString_stringUnit opening _ _ _ (hus u (by simp)) (by simp) hb
    exact hstep _ _ (ih (fun v hv => hus v (by simp [hv])) hb')

/-- **Strings.** A string is read back from its quotes. -/
theorem stringAt_string {s : String} (hs : isHeld s = true) :
    stringAt ((string false s).toList ++ rest) = .ok (s, rest) := by
  have htext : (string false s).toList ++ rest = '"' :: ((units s.toList).flatMap (stringUnit false) ++ '"' :: rest) := by
    simp [string]
  have hheld : ofUnits (units s.toList) = s.toList := eq_of_beq hs
  have hb : ((units s.toList).flatMap (stringUnit false) ++ '"' :: rest).length ≤
      ((string false s).toList ++ rest).length := by
    rw [htext, List.length_cons]
    omega
  have hread : readString ((string false s).toList ++ rest) ((string false s).toList ++ rest).length
      ((units s.toList).flatMap (stringUnit false) ++ '"' :: rest) = .ok (ofUnits (units s.toList), rest) :=
    readString_units (fun u hu => lt_of_mem_units hu) hb
  have hdrop : ((string false s).toList ++ rest).drop 1 = (units s.toList).flatMap (stringUnit false) ++ '"' :: rest := by
    rw [htext, List.drop_succ_cons, List.drop_zero]
  rw [stringAt, hdrop, hread, hheld]
  simp [bind, Except.bind, pure, Except.pure]

end

/-! ## Numbers -/

/-- What stands behind a value in a document: a comma or a line end. -/
def IsEnd (rest : List Char) : Prop := ∃ c cs, rest = c :: cs ∧ (c = ',' ∨ c = '\n')

/-- The minus sign in front of a number. -/
def minusOf : List Char → Bool × List Char
  | '-' :: rest => (true, rest)
  | cs => (false, cs)

/-- The digits in front of the fraction: a zero stands alone. -/
def wholeOf (cs : List Char) : List Char × List Char :=
  match cs with
  | '0' :: rest => (['0'], rest)
  | _ => digitsOf cs

/-- A number by its whole part and what stands behind that. -/
def numberFrom (negative : Bool) (whole rest fraction after : List Char) : Except Stop (Value × List Char) :=
  match fraction, exponentOf? after with
  | [], none =>
    if Numeral.maxDigits < whole.length then .error (.numeral (.tooLong whole.length))
    else .ok (.int (if negative then -(numberOf whole : Int) else numberOf whole), rest)
  | fraction, exponent =>
    let (e, out) := exponent.getD (0, after)
    .ok (.float (Binary64.ofDecimal negative (numberOf (whole ++ fraction)) (e - fraction.length)), out)

theorem numberAt_parts (cs : List Char) : numberAt cs =
    match minusOf cs with
    | (negative, body) =>
      match wholeOf body with
      | (whole, rest) =>
        if whole.isEmpty then .error (.at .value cs)
        else
          match fractionOf rest with
          | (fraction, after) => numberFrom negative whole rest fraction after :=
  rfl

section
variable {cs rest out : List Char} {v : Value}

theorem digitsOf_append (h : IsEnd rest) : digitsOf (cs ++ rest) = ((digitsOf cs).1, (digitsOf cs).2 ++ rest) := by
  obtain ⟨c, after, rfl, hc⟩ := h
  have hstop : c.isDigit = false := by rcases hc with rfl | rfl <;> rfl
  simp only [digitsOf, List.span_eq_takeWhile_dropWhile]
  induction cs with
  | nil => simp [hstop]
  | cons d cs ih =>
    cases hd : d.isDigit with
    | true =>
      obtain ⟨htake, hdrop⟩ := Prod.mk.inj ih
      simp [hd, htake, hdrop]
    | false => simp [hd]

theorem wholeOf_append (h : IsEnd rest) : wholeOf (cs ++ rest) = ((wholeOf cs).1, (wholeOf cs).2 ++ rest) := by
  cases cs with
  | nil =>
    have hdigits := @digitsOf_append [] rest h
    obtain ⟨c, after, rfl, hc⟩ := h
    rcases hc with rfl | rfl <;> exact hdigits
  | cons d cs =>
    by_cases hd : d = '0'
    · subst hd
      rfl
    · have own : ∀ ds, wholeOf (d :: ds) = digitsOf (d :: ds) := by
        intro ds
        unfold wholeOf
        split
        next he => exact absurd (List.cons.inj he).1 hd
        · rfl
      rw [List.cons_append, own, own, ← List.cons_append]
      exact digitsOf_append h

theorem fractionOf_append (h : IsEnd rest) :
    fractionOf (cs ++ rest) = ((fractionOf cs).1, (fractionOf cs).2 ++ rest) := by
  cases cs with
  | nil =>
    obtain ⟨c, after, rfl, hc⟩ := h
    rcases hc with rfl | rfl <;> rfl
  | cons d cs =>
    by_cases hd : d = '.'
    · subst hd
      rw [List.cons_append, fractionOf, fractionOf, digitsOf_append h]
      rcases hds : digitsOf cs with ⟨_ | ⟨e, ds⟩, after⟩ <;> rfl
    · rw [List.cons_append, fractionOf.eq_2 _ fun _ => by simp [hd], fractionOf.eq_2 _ fun _ => by simp [hd]]
      rfl

theorem sign_append (h : IsEnd rest) :
    Numeral.sign (cs ++ rest) = ((Numeral.sign cs).1, (Numeral.sign cs).2 ++ rest) := by
  cases cs with
  | nil =>
    obtain ⟨c, after, rfl, hc⟩ := h
    rcases hc with rfl | rfl <;> rfl
  | cons d cs =>
    by_cases hminus : d = '-'
    · subst hminus
      rfl
    by_cases hplus : d = '+'
    · subst hplus
      rfl
    have own : ∀ ds, Numeral.sign (d :: ds) = (false, d :: ds) := fun ds =>
      Numeral.sign.eq_3 _ (fun _ he => hminus (List.cons.inj he).1) fun _ he => hplus (List.cons.inj he).1
    rw [List.cons_append, own, own]
    rfl

theorem exponentOf?_append (h : IsEnd rest) :
    exponentOf? (cs ++ rest) = (exponentOf? cs).map fun p => (p.1, p.2 ++ rest) := by
  cases cs with
  | nil =>
    obtain ⟨c, after, rfl, hc⟩ := h
    rcases hc with rfl | rfl <;> rfl
  | cons d cs =>
    rw [List.cons_append, exponentOf?, exponentOf?]
    split
    · rw [sign_append h]
      generalize Numeral.sign cs = signed
      obtain ⟨negative, body⟩ := signed
      simp only [digitsOf_append h]
      rcases digitsOf body with ⟨_ | ⟨e, ds⟩, after⟩ <;> rfl
    · rfl

theorem minusOf_append (hcs : cs ≠ []) : minusOf (cs ++ rest) = ((minusOf cs).1, (minusOf cs).2 ++ rest) := by
  cases cs with
  | nil => exact absurd rfl hcs
  | cons d cs =>
    by_cases hminus : d = '-'
    · subst hminus
      rfl
    · have own : ∀ ds, minusOf (d :: ds) = (false, d :: ds) := fun ds =>
        minusOf.eq_2 _ fun _ he => hminus (List.cons.inj he).1
      rw [List.cons_append, own, own]
      rfl

theorem numberFrom_append (h : IsEnd rest) {negative : Bool} {whole behind fraction after : List Char}
    (hcs : numberFrom negative whole behind fraction after = .ok (v, out)) :
    numberFrom negative whole (behind ++ rest) fraction (after ++ rest) = .ok (v, out ++ rest) := by
  unfold numberFrom at hcs ⊢
  rw [exponentOf?_append h]
  generalize exponentOf? after = exponent at hcs
  rcases exponent with _ | ⟨e, left⟩
  · cases fraction with
    | nil =>
      simp only [Option.map_none] at hcs ⊢
      split at hcs
      · cases hcs
      next hlong =>
        rw [if_neg hlong]
        cases hcs
        rfl
    | cons c fraction =>
      cases hcs
      rfl
  · cases fraction <;> cases hcs <;> rfl

/-- A number that is read from a text is read before an end too. -/
theorem numberAt_append (h : IsEnd rest) (hcs : numberAt cs = .ok (v, out)) :
    numberAt (cs ++ rest) = .ok (v, out ++ rest) := by
  have hne : cs ≠ [] := by
    rintro rfl
    cases hcs
  rw [numberAt_parts] at hcs ⊢
  rw [minusOf_append hne]
  generalize minusOf cs = signed at hcs
  obtain ⟨negative, body⟩ := signed
  simp only [wholeOf_append h] at hcs ⊢
  generalize wholeOf body = parts at hcs
  obtain ⟨whole, behind⟩ := parts
  simp only [fractionOf_append h] at hcs ⊢
  split at hcs
  · cases hcs
  next hwhole =>
    rw [if_neg hwhole]
    exact numberFrom_append h hcs

end

/-! ### Integers -/

section
variable {ds : List Char} {n : ℕ}

theorem digitsOf_digits (h : ∀ c ∈ ds, c.isDigit = true) : digitsOf ds = (ds, []) := by
  have hspan : (ds ++ []).span Char.isDigit = (ds, []) := span_append h (by simp)
  rwa [List.append_nil] at hspan

/-- The first digit of a positive number is not zero. -/
theorem head_toDigits (h : 0 < n) : ∃ c cs, Nat.toDigits 10 n = c :: cs ∧ c ≠ '0' := by
  induction n using Nat.strongRecOn with
  | ind n ih =>
    by_cases hn : n < 10
    · have hdigit : ∀ n < 10, 0 < n → n.digitChar ≠ '0' := by decide
      exact ⟨_, [], Nat.toDigits_of_lt_base hn, hdigit n hn h⟩
    · obtain ⟨c, cs, hcs, hc⟩ := ih (n / 10) (by omega) (by omega)
      exact ⟨c, cs ++ [(n % 10).digitChar], by
        rw [Nat.toDigits_of_base_le (by decide) (by omega), hcs, List.cons_append], hc⟩

theorem numberOf_toDigits : numberOf (Nat.toDigits 10 n) = n := by
  have hfold : ∀ (cs : List Char) (k : ℕ),
      cs.foldl (fun n c => n * 10 + (c.toNat - 48)) k = Nat.ofDigitChars 10 cs k := by
    intro cs
    induction cs with
    | nil => exact fun k => rfl
    | cons c cs ih =>
      intro k
      rw [List.foldl_cons, ih, Nat.ofDigitChars_cons, Nat.mul_comm]
      rfl
  rw [numberOf, hfold, Nat.ofDigitChars_toDigits (by decide) (Nat.le_refl 10)]

theorem wholeOf_toDigits : wholeOf (Nat.toDigits 10 n) = (Nat.toDigits 10 n, []) := by
  rcases Nat.eq_zero_or_pos n with rfl | hn
  · rfl
  · have hdigits := digitsOf_digits (toList_nat (n := n) ▸ isDigit_nat)
    obtain ⟨c, cs, hcs, hc⟩ := head_toDigits hn
    rw [hcs] at hdigits ⊢
    unfold wholeOf
    split
    next he => exact absurd (List.cons.inj he).1 hc
    · exact hdigits

theorem length_toDigits_le {k : ℕ} (hk : 0 < k) (h : n < tenTo k) : (Nat.toDigits 10 n).length ≤ k :=
  (Nat.length_toDigits_le_iff (by decide) hk).2 h

theorem numberFrom_toDigits {negative : Bool} (h : n < tenTo Numeral.maxDigits) :
    numberFrom negative (Nat.toDigits 10 n) [] [] [] = .ok (.int (if negative then -(n : ℤ) else n), []) := by
  have hlen := length_toDigits_le (by decide) h
  have hlong : ¬ Numeral.maxDigits < (Nat.toDigits 10 n).length := by omega
  have hnone : exponentOf? [] = none := rfl
  unfold numberFrom
  rw [hnone]
  simp only
  rw [if_neg hlong, numberOf_toDigits]

/-- The written form of an integer is read as that integer. -/
theorem numberAt_int {n : ℤ} {s : String} (h : Numeral.written n = .ok s) : numberAt s.toList = .ok (.int n, []) := by
  unfold Numeral.written at h
  split at h
  · cases h
  next hsmall =>
    cases h
    have hne : ∀ m : ℕ, (Nat.toDigits 10 m).isEmpty = false := fun m => by
      rw [List.isEmpty_eq_false_iff]
      exact Nat.toDigits_ne_nil
    rw [numberAt_parts]
    cases n with
    | ofNat m =>
      have htext : (toString (Int.ofNat m)).toList = Nat.toDigits 10 m := toList_nat
      have hminus : minusOf (Nat.toDigits 10 m) = (false, Nat.toDigits 10 m) := by
        unfold minusOf
        split
        next rest he =>
          have hdash : '-'.isDigit = true := isDigit_nat (n := m) _ (by rw [toList_nat, he]; simp)
          exact absurd hdash (by decide)
        · rfl
      rw [htext, hminus]
      simp only [wholeOf_toDigits, hne, Bool.false_eq_true, if_false]
      exact numberFrom_toDigits (not_le.1 hsmall)
    | negSucc m =>
      have htext : (toString (Int.negSucc m)).toList = '-' :: Nat.toDigits 10 (m + 1) := by
        have happend : toString (Int.negSucc m) = "-" ++ String.ofList (Nat.toDigits 10 (m + 1)) := rfl
        rw [happend, String.toList_append, @String.toList_ofList (Nat.toDigits 10 (m + 1))]
        rfl
      rw [htext]
      simp only [minusOf, wholeOf_toDigits, hne, Bool.false_eq_true, if_false]
      exact numberFrom_toDigits (not_le.1 hsmall)

end

end Json

end Assay
