import Assay.Proofs.TextParts
import Assay.RunStore.Allocation

/-!
# Run ids

An id that is taken is the name of no run yet, and it is made of a day, a number of at most two digits and
a time of day (`freeId_eq_some`). At a time that a clock shows these are sixteen digits (`digits_idOf`), so
that a run is asked for by the id under which it was stored.
-/

namespace Assay

/-- A moment that a clock shows: its year has four digits. -/
structure Moment.IsShown (now : Moment) : Prop where
  year : 1000 ≤ now.date.year ∧ now.date.year ≤ 9999
  month : now.date.month ≤ 12
  day : now.date.day ≤ 31
  hour : now.hour ≤ 23
  minute : now.minute ≤ 59
  second : now.second ≤ 59

/-- A day after 1970 has a year of at least four digits. -/
theorem Date.civil_bounds {days : ℤ} (h : 0 ≤ days) :
    1000 ≤ (civil days).1 ∧ (civil days).2.1 ≤ 12 ∧ (civil days).2.2 ≤ 31 := by
  unfold civil
  extract_lets z era dayOfEra yearOfEra dayOfYear m day month year
  have hera : era = z / 146097 := Int.fdiv_eq_ediv_of_nonneg z (by decide)
  have hyear : 0 ≤ yearOfEra ∧ dayOfYear ≤ 672 := by omega
  have hmonth : month ≤ 12 := by
    by_cases hm : m < 10
    · have hmonth : month = m + 3 := if_pos hm
      omega
    · have hmonth : month = m - 9 := if_neg hm
      omega
  have hday : day ≤ 31 := by omega
  have hyears : yearOfEra + era * 400 ≤ year := by
    by_cases hm : month ≤ 2
    · have hy : year = yearOfEra + era * 400 + 1 := by simp only [year, if_pos hm]
      omega
    · have hy : year = yearOfEra + era * 400 + 0 := by simp only [year, if_neg hm]
      omega
  refine ⟨?_, ?_, ?_⟩ <;> simp only <;> omega

/-- A clock that counts the seconds of the years from 1970 on shows such moments. -/
theorem Moment.isShown_of_ofSeconds? {seconds : ℕ} {m : Moment} (h : ofSeconds? seconds = some m) : m.IsShown := by
  have hdays : 0 ≤ Int.fdiv (seconds : ℤ) 86400 := by
    rw [Int.fdiv_eq_ediv_of_nonneg _ (by decide)]
    omega
  have hrest : (Int.fmod (seconds : ℤ) 86400).toNat < 86400 := by
    rw [Int.fmod_eq_emod_of_nonneg _ (by decide)]
    omega
  obtain ⟨hyear, hmonth, hday⟩ := Date.civil_bounds hdays
  simp only [ofSeconds?, splitSeconds] at h
  obtain ⟨hrange, hm⟩ := Option.ite_none_right_eq_some.1 h
  cases hm
  exact {
    year := by simp only; omega
    month := hmonth
    day := hday
    hour := by simp only; omega
    minute := by simp only; omega
    second := by simp only; omega }

namespace RunStore

/-- Some digits of ASCII. -/
structure Digits (width : ℕ) (s : String) : Prop where
  length : s.toList.length = width
  isDigit : ∀ c ∈ s.toList, c.isDigit = true

section
variable {s t : String} {m n width : ℕ} {now : Moment} {runs : Directory} {id : String}

theorem Digits.append (hs : Digits m s) (ht : Digits n t) : Digits (m + n) (s ++ t) := by
  refine ⟨by rw [String.toList_append, List.length_append, hs.length, ht.length], fun c hc => ?_⟩
  rw [String.toList_append] at hc
  exact (List.mem_append.1 hc).elim (hs.isDigit c) (ht.isDigit c)

theorem digits_padded (hw : 0 < width) (hn : n < 10 ^ width) : Digits width (Date.padded width n) := by
  have hlen : (toString n).toList.length ≤ width := by
    rw [Text.toList_nat]
    exact (Nat.length_toDigits_le_iff (by decide) hw).2 hn
  rw [String.length_toList] at hlen
  unfold Date.padded
  refine ⟨?_, fun c hc => ?_⟩
  · simp only [String.toList_append, String.toList_ofList, List.length_append, List.length_replicate,
      String.length_toList]
    omega
  · rw [String.toList_append, String.toList_ofList] at hc
    rcases List.mem_append.1 hc with hc | hc
    · rw [List.eq_of_mem_replicate hc]
      decide
    · exact Text.isDigit_nat c hc

theorem digits_year (h : 1000 ≤ n ∧ n ≤ 9999) : Digits 4 (toString n) := by
  refine ⟨?_, Text.isDigit_nat⟩
  have hle := (Nat.length_toDigits_le_iff (b := 10) (n := n) (k := 4) (by decide) (by decide)).2 (by omega)
  have hge := (Nat.length_toDigits_le_iff (b := 10) (n := n) (k := 3) (by decide) (by decide)).not.2 (by omega)
  rw [Text.toList_nat]
  omega

theorem digits_two (hn : n ≤ 99) : Digits 2 (Date.padded 2 n) := digits_padded (by decide) (by omega)

theorem digits_stamp (hnow : now.IsShown) : Digits 8 now.date.stamp := by
  have hmonth := hnow.month
  have hday := hnow.day
  exact ((digits_year hnow.year).append (digits_two (by omega))).append (digits_two (by omega))

theorem digits_clockStamp (hnow : now.IsShown) : Digits 6 now.clockStamp := by
  have hhour := hnow.hour
  have hminute := hnow.minute
  have hsecond := hnow.second
  exact ((digits_two (by omega)).append (digits_two (by omega))).append (digits_two (by omega))

/-- An id that a clock gives is made of digits. -/
theorem digits_idOf (hnow : now.IsShown) (hn : n ≤ maxNumber) : Digits idLength (idOf now n) :=
  ((digits_stamp hnow).append (digits_two hn)).append (digits_clockStamp hnow)

theorem Digits.isDigits (h : Digits idLength s) : isDigits s.toList = true := by
  have hall : ∀ c ∈ s.toList, Text.isDecimal c = true := fun c hc => Text.isDecimal_of_isDigit (h.isDigit c hc)
  simp [RunStore.isDigits, h.length, List.all_eq_true.2 hall]

/-- Digits are not trimmed. -/
theorem Digits.strip (h : Digits width s) : Text.strip s = s := by
  rw [Text.strip, Text.trim_digits h.isDigit, String.ofList_toList]

/-- The number that a run stored now gets: the first from the next number on whose id is no name yet. -/
structure Allots (now : Moment) (runs : Directory) (k : ℕ) : Prop where
  next_le : nextNumber now.date.stamp runs ≤ k
  le_max : k ≤ maxNumber
  new : runs.get? (idOf now k) = none
  taken : ∀ j, nextNumber now.date.stamp runs ≤ j → j < k → (runs.get? (idOf now j)).isSome

theorem freeFrom_eq_some {fuel : ℕ} (h : freeFrom now runs fuel n = some id) :
    ∃ k, n ≤ k ∧ k < n + fuel ∧ id = idOf now k ∧ runs.get? id = none ∧
      ∀ j, n ≤ j → j < k → (runs.get? (idOf now j)).isSome := by
  induction fuel generalizing n with
  | zero => cases h
  | succ fuel ih =>
    unfold freeFrom at h
    split at h
    next hfree =>
      cases h
      exact ⟨n, le_rfl, by omega, rfl, Option.isNone_iff_eq_none.1 hfree, fun j hj hlt => absurd hlt (by omega)⟩
    next htaken =>
      obtain ⟨k, hn, hk, hid, hnew, hbetween⟩ := ih h
      refine ⟨k, by omega, by omega, hid, hnew, fun j hj hlt => ?_⟩
      obtain rfl | hj := hj.eq_or_lt
      · simpa [isFree, Option.isSome_iff_ne_none] using htaken
      · exact hbetween j hj hlt

theorem freeFrom_eq_none {fuel : ℕ} (h : freeFrom now runs fuel n = none) :
    ∀ j, n ≤ j → j < n + fuel → (runs.get? (idOf now j)).isSome := by
  induction fuel generalizing n with
  | zero => exact fun j hj hlt => absurd hlt (by omega)
  | succ fuel ih =>
    unfold freeFrom at h
    split at h
    · cases h
    next htaken =>
      intro j hj hlt
      obtain rfl | hj := hj.eq_or_lt
      · simpa [isFree, Option.isSome_iff_ne_none] using htaken
      · exact ih h j hj (by omega)

/-- The id of a run stored now is that of its number. -/
theorem exists_allots (h : freeId now runs = some id) : ∃ k, Allots now runs k ∧ id = idOf now k := by
  obtain ⟨k, hnext, hk, rfl, hnew, htaken⟩ := freeFrom_eq_some h
  -- No number is left to try if the first one is too large.
  exact ⟨k, ⟨hnext, by omega, hnew, htaken⟩, rfl⟩

/-- No id is left if all numbers from the next one on are taken. -/
theorem taken_of_freeId_eq_none (h : freeId now runs = none) {j : ℕ} (hnext : nextNumber now.date.stamp runs ≤ j)
    (hj : j ≤ maxNumber) : (runs.get? (idOf now j)).isSome :=
  freeFrom_eq_none h j hnext (by omega)

/-- An id that is taken is the name of no run, and its number has two digits. -/
theorem freeId_eq_some (h : freeId now runs = some id) :
    ∃ k ≤ maxNumber, id = idOf now k ∧ runs.get? id = none := by
  obtain ⟨k, hk, rfl⟩ := exists_allots h
  exact ⟨k, hk.le_max, rfl, hk.new⟩

end

end RunStore

end Assay
