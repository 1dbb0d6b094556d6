import Assay.Proofs.DiskPlaces
import Assay.Proofs.FileText
import Assay.Proofs.JsonTokens
import Assay.Proofs.Ranking
import Assay.Proofs.RunIds

/-!
# The order of run ids

An id is written with sixteen digits, and texts of equally many digits are ordered as the numbers for which they
stand (`RunStore.before_of_valueOf_lt`). The day comes first in an id, then the number of the run within the day,
and the time of day last, so a later day or a higher number of the same day makes a later id, whatever the time
(`RunStore.idOf_before_of_day`, `RunStore.idOf_before_of_number`). The number of a run is read from its id
(`RunStore.numberOf_idOf`), and the runs of a day have lower numbers than the next one
(`RunStore.numberOf_lt_next`).
-/

namespace Assay

/-! ## Numbers -/

namespace Numeral

theorem foldl_ofDigits (ds : List ℕ) (k : ℕ) :
    ds.foldl (fun n d => n * 10 + d) k = k * 10 ^ ds.length + ofDigits ds := by
  unfold ofDigits
  induction ds generalizing k with
  | nil => simp
  | cons d ds ih =>
    rw [List.foldl_cons, List.foldl_cons, ih, ih (0 * 10 + d), List.length_cons]
    ring

theorem ofDigits_append (ds es : List ℕ) : ofDigits (ds ++ es) = ofDigits ds * 10 ^ es.length + ofDigits es := by
  rw [ofDigits, List.foldl_append, foldl_ofDigits]
  rfl

theorem ofDigits_cons (d : ℕ) (ds : List ℕ) : ofDigits (d :: ds) = d * 10 ^ ds.length + ofDigits ds := by
  rw [← List.singleton_append, ofDigits_append]
  simp [ofDigits]

/-- The digits that are written as `48` to `57`. -/
def IsCode (u : ℕ) : Prop := 48 ≤ u ∧ u ≤ 57

theorem ofDigits_lt {us : List ℕ} (h : ∀ u ∈ us, IsCode u) : ofDigits (us.map (· - 48)) < 10 ^ us.length := by
  induction us with
  | nil => simp [ofDigits]
  | cons u us ih =>
    obtain ⟨-, hu⟩ := h u List.mem_cons_self
    have hus := ih fun v hv => h v (List.mem_cons_of_mem _ hv)
    have hfirst : (u - 48) * 10 ^ us.length ≤ 9 * 10 ^ us.length := Nat.mul_le_mul_right _ (by omega)
    rw [List.map_cons, ofDigits_cons, List.length_map, List.length_cons, pow_succ]
    omega

/-- Equally many digits are ordered as the numbers for which they stand. -/
theorem lt_of_ofDigits_lt {us vs : List ℕ} (hlen : us.length = vs.length) (hus : ∀ u ∈ us, IsCode u)
    (hvs : ∀ v ∈ vs, IsCode v) (h : ofDigits (us.map (· - 48)) < ofDigits (vs.map (· - 48))) : us < vs := by
  induction us generalizing vs with
  | nil =>
    rw [List.eq_nil_of_length_eq_zero hlen.symm] at h
    exact absurd h (lt_irrefl _)
  | cons u us ih =>
    cases vs with
    | nil => cases hlen
    | cons v vs =>
      have hrests : us.length = vs.length := Nat.succ.inj hlen
      obtain ⟨hu, -⟩ := hus u List.mem_cons_self
      obtain ⟨hv, -⟩ := hvs v List.mem_cons_self
      have hcodes : ∀ w ∈ vs, IsCode w := fun w hw => hvs w (List.mem_cons_of_mem _ hw)
      have hbound := ofDigits_lt hcodes
      rw [List.map_cons, List.map_cons, ofDigits_cons, ofDigits_cons, List.length_map, List.length_map, hrests] at h
      rw [List.cons_lt_cons_iff]
      obtain hlt | rfl | hgt := lt_trichotomy u v
      · exact .inl hlt
      · exact .inr ⟨rfl, ih hrests (fun w hw => hus w (List.mem_cons_of_mem _ hw)) hcodes (by omega)⟩
      · -- A higher first digit outweighs all digits behind it.
        have hmore : (v - 48 + 1) * 10 ^ vs.length ≤ (u - 48) * 10 ^ vs.length := Nat.mul_le_mul_right _ (by omega)
        rw [Nat.add_mul, Nat.one_mul] at hmore
        omega

end Numeral

namespace Text

variable {cs : List Char}

theorem ofUnits_of_ascii (h : ∀ c ∈ cs, c.toNat < 0x80) : ofUnits (cs.map Char.toNat) = cs := by
  induction cs with
  | nil => rfl
  | cons c cs ih =>
    rw [List.map_cons, ofUnits, List.flatMap_cons, ofUnit_ascii (h c List.mem_cons_self)]
    exact congrArg (c :: ·) (ih fun d hd => h d (List.mem_cons_of_mem _ hd))

theorem units_of_ascii (h : ∀ c ∈ cs, c.toNat < 0x80) : units cs = cs.map Char.toNat := by
  conv_lhs => rw [← ofUnits_of_ascii h]
  refine units_ofUnits fun u hu => ?_
  obtain ⟨c, hc, rfl⟩ := List.mem_map.1 hu
  exact (h c hc).trans (by decide)

end Text

/-- The days in order: by year, then month, then day. -/
def Date.rank (d : Date) : ℕ ×ₗ ℕ ×ₗ ℕ := toLex (d.year, toLex (d.month, d.day))

theorem Date.rank_lt_iff {a b : Date} : a.rank < b.rank ↔
    a.year < b.year ∨ a.year = b.year ∧ (a.month < b.month ∨ a.month = b.month ∧ a.day < b.day) := by
  simp [rank, Prod.Lex.toLex_lt_toLex]

theorem Date.rank_inj {a b : Date} : a.rank = b.rank ↔ a = b := by
  refine ⟨fun h => ?_, congrArg _⟩
  cases a
  cases b
  simpa [rank] using h

namespace RunStore

/-- The number that a text of digits stands for. -/
def valueOf (s : String) : ℕ := Numeral.ofDigits (s.toList.filterMap Text.digitValue?)

section
variable {s t : String} {m n width : ℕ} {now later : Moment} {runs : Directory} {files : Directory}

theorem Digits.isCode (h : Digits width s) : ∀ u ∈ s.toList.map Char.toNat, Numeral.IsCode u := by
  intro u hu
  obtain ⟨c, hc, rfl⟩ := List.mem_map.1 hu
  exact Text.toNat_of_isDigit (h.isDigit c hc)

theorem Digits.ascii (h : Digits width s) : ∀ c ∈ s.toList, c.toNat < 0x80 := fun c hc =>
  (Text.toNat_of_isDigit (h.isDigit c hc)).2.trans_lt (by decide)

theorem Digits.units (h : Digits width s) : Text.units s.toList = s.toList.map Char.toNat := Text.units_of_ascii h.ascii

theorem Digits.values (h : Digits width s) :
    s.toList.filterMap Text.digitValue? = (s.toList.map Char.toNat).map (· - 48) := by
  rw [List.map_map, ← List.filterMap_eq_map]
  exact List.filterMap_congr fun c hc => Text.digitValue?_of_isDigit (h.isDigit c hc)

theorem valueOf_append (ht : Digits n t) : valueOf (s ++ t) = valueOf s * 10 ^ n + valueOf t := by
  rw [valueOf, String.toList_append, List.filterMap_append, Numeral.ofDigits_append, ht.values, List.length_map,
    List.length_map, ht.length, valueOf, valueOf, ht.values]

/-- A text of digits comes before the texts that stand for more. -/
theorem before_of_valueOf_lt (hs : Digits width s) (ht : Digits width t) (h : valueOf s < valueOf t) :
    Text.before s t = true := by
  rw [valueOf, valueOf, hs.values, ht.values] at h
  have hlt := Numeral.lt_of_ofDigits_lt (by simp [hs.length, ht.length]) hs.isCode ht.isCode h
  rw [Text.before_iff, Text.rankKey, Text.rankKey, hs.units, ht.units, Prod.Lex.toLex_lt_toLex]
  exact .inl hlt

theorem valueOf_nat (n : ℕ) : valueOf (toString n) = n := by
  have hdigits : Digits _ (toString n) := ⟨rfl, Text.isDigit_nat⟩
  rw [valueOf, hdigits.values, Text.toList_nat, List.map_map, Numeral.ofDigits, List.foldl_map]
  exact Json.numberOf_toDigits

/-- Zeros in front of a number change nothing. -/
theorem valueOf_padded (width n : ℕ) : valueOf (Date.padded width n) = n := by
  have hdigits : Digits _ (toString n) := ⟨rfl, Text.isDigit_nat⟩
  have hzeros : ∀ k, valueOf (String.ofList (List.replicate k '0')) = 0 := by
    intro k
    induction k with
    | zero => rfl
    | succ k ih =>
      have hsplit : String.ofList (List.replicate (k + 1) '0') = String.ofList (List.replicate k '0') ++ toString 0 := by
        rw [List.replicate_succ', ← String.toList_inj]
        simp
      have hzero : Digits 1 (toString 0) := ⟨rfl, Text.isDigit_nat⟩
      rw [hsplit, valueOf_append hzero, ih, valueOf_nat, Nat.zero_mul]
  rw [Date.padded, valueOf_append hdigits, hzeros, valueOf_nat, Nat.zero_mul, Nat.zero_add]

theorem valueOf_stamp (hnow : now.IsShown) :
    valueOf now.date.stamp = (now.date.year * 100 + now.date.month) * 100 + now.date.day := by
  have hmonth := hnow.month
  have hday := hnow.day
  rw [Date.stamp, valueOf_append (digits_two (by omega)), valueOf_append (digits_two (by omega)), valueOf_nat,
    valueOf_padded, valueOf_padded]
  norm_num

theorem valueOf_clockStamp (hnow : now.IsShown) :
    valueOf now.clockStamp = (now.hour * 100 + now.minute) * 100 + now.second := by
  have hminute := hnow.minute
  have hsecond := hnow.second
  rw [Moment.clockStamp, valueOf_append (digits_two (by omega)), valueOf_append (digits_two (by omega)), valueOf_padded,
    valueOf_padded, valueOf_padded]
  norm_num

/-- An id stands for its day, its number and its time of day, in this order. -/
theorem valueOf_idOf (hnow : now.IsShown) (hn : n ≤ maxNumber) :
    valueOf (idOf now n) = (valueOf now.date.stamp * 100 + n) * 1000000 + valueOf now.clockStamp := by
  rw [idOf, valueOf_append (digits_clockStamp hnow), valueOf_append (digits_two hn), valueOf_padded]
  norm_num

theorem valueOf_clockStamp_lt (hnow : now.IsShown) : valueOf now.clockStamp < 1000000 := by
  have hhour := hnow.hour
  have hminute := hnow.minute
  have hsecond := hnow.second
  rw [valueOf_clockStamp hnow]
  omega

/-! ## Order -/

theorem stamp_lt (hnow : now.IsShown) (hlater : later.IsShown) (h : now.date.rank < later.date.rank) :
    valueOf now.date.stamp < valueOf later.date.stamp := by
  have hmonth := hnow.month
  have hday := hnow.day
  have hmonth' := hlater.month
  have hday' := hlater.day
  rw [valueOf_stamp hnow, valueOf_stamp hlater]
  rw [Date.rank_lt_iff] at h
  omega

/-- A later day makes a later id, whatever the number and the time of day. -/
theorem idOf_before_of_day (hnow : now.IsShown) (hlater : later.IsShown) (hm : m ≤ maxNumber) (hn : n ≤ maxNumber)
    (h : now.date.rank < later.date.rank) : Text.before (idOf now m) (idOf later n) = true := by
  refine before_of_valueOf_lt (digits_idOf hnow hm) (digits_idOf hlater hn) ?_
  have hstamp := stamp_lt hnow hlater h
  have hclock := valueOf_clockStamp_lt hnow
  rw [valueOf_idOf hnow hm, valueOf_idOf hlater hn]
  unfold maxNumber at hm
  omega

/-- A higher number of the same day makes a later id, whatever the time of day. -/
theorem idOf_before_of_number (hnow : now.IsShown) (hlater : later.IsShown) (hn : n ≤ maxNumber)
    (hday : now.date = later.date) (h : m < n) : Text.before (idOf now m) (idOf later n) = true := by
  refine before_of_valueOf_lt (digits_idOf hnow (by omega)) (digits_idOf hlater hn) ?_
  have hclock := valueOf_clockStamp_lt hnow
  rw [valueOf_idOf hnow (by omega), valueOf_idOf hlater hn, hday]
  omega

/-! ## The number in an id -/

/-- The number of a run is read from its id. -/
theorem numberOf_idOf (hnow : now.IsShown) (hn : n ≤ maxNumber) : numberOf (idOf now n) = n := by
  have hdrop : ∀ cs, (now.date.stamp.toList ++ cs).drop 8 = cs := fun _ => List.drop_left' (digits_stamp hnow).length
  have htake : ∀ cs, ((Date.padded 2 n).toList ++ cs).take 2 = (Date.padded 2 n).toList := fun _ =>
    List.take_left' (digits_two hn).length
  rw [numberOf, idOf, String.toList_append, String.toList_append, List.append_assoc, hdrop, htake]
  exact valueOf_padded 2 n

theorem isRunOf_idOf (hnow : now.IsShown) (hn : n ≤ maxNumber) :
    isRunOf now.date.stamp (idOf now n, .dir files) = true := by
  have hname : isRunName (idOf now n) = true := by
    rw [isRunName, (digits_idOf hnow hn).isDigits, Bool.true_or]
  have hprefix : now.date.stamp.toList.isPrefixOf (idOf now n).toList = true := by
    rw [List.isPrefixOf_iff_prefix, idOf, String.toList_append, String.toList_append, List.append_assoc]
    exact List.prefix_append _ _
  simp [isRunOf, Node.isDir, hname, hprefix]

/-! ## Numbers of a day -/

theorem le_foldl_max {l : List ℕ} {k : ℕ} : k ≤ l.foldl max k ∧ ∀ x ∈ l, x ≤ l.foldl max k := by
  induction l generalizing k with
  | nil => simp
  | cons y l ih =>
    obtain ⟨hstart, hall⟩ := @ih (max k y)
    refine ⟨(le_max_left k y).trans hstart, fun x hx => ?_⟩
    rcases List.mem_cons.1 hx with rfl | hx
    · exact (le_max_right k x).trans hstart
    · exact hall x hx

/-- The runs of a day have lower numbers than the one that is tried first. -/
theorem numberOf_lt_next {day : String} {e : String × Node} (he : e ∈ runs) (hrun : isRunOf day e = true) :
    numberOf e.1 < nextNumber day runs :=
  Nat.lt_succ_of_le (le_foldl_max.2 _ (List.mem_map.2 ⟨e, List.mem_filter.2 ⟨he, hrun⟩, rfl⟩))

theorem nextNumber_of_none {day : String} (h : ∀ e ∈ runs, isRunOf day e = false) : nextNumber day runs = 1 := by
  have hnone : runs.filter (isRunOf day) = [] := List.filter_eq_nil_iff.2 fun e he => by simp [h e he]
  rw [nextNumber, numbers, hnone]
  rfl

/-- After a run got its number, the next higher one is tried first. -/
theorem nextNumber_put (hnow : now.IsShown) (h : Allots now runs n) :
    nextNumber now.date.stamp (runs.put (idOf now n) (.dir files)) = n + 1 := by
  have hle : (numbers now.date.stamp runs).foldl max 0 ≤ n := by
    have hnext := h.next_le
    unfold nextNumber at hnext
    omega
  rw [nextNumber, numbers, Directory.put_of_new h.new, List.filter_append, List.map_append, List.foldl_append]
  simp only [List.filter_cons, isRunOf_idOf hnow h.le_max, if_true, List.filter_nil, List.map_cons, List.map_nil,
    List.foldl_cons, List.foldl_nil, numberOf_idOf hnow h.le_max]
  rw [← numbers, max_eq_right hle]

end

end RunStore

end Assay
