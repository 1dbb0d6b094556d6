import Assay.Files.Disk
import Assay.Proofs.Refusals

/-!
# Text in files

A text that holds code points without half surrogates and without carriage returns is read from its bytes
as it was written: every code point is found again by its first byte, and no line end is unified.
-/

namespace Assay

namespace Text

/-- Characters that hold code points, none of them a carriage return. Those of a whole text are no halves
of surrogate pairs. -/
def Written (whole : Bool) (cs : List Char) : Prop :=
  ∃ us, (∀ u ∈ us, u < 0x110000 ∧ u ≠ 13 ∧ (whole = true → isSurrogate u = false)) ∧ ofUnits us = cs

section
variable {whole : Bool} {cs ds : List Char} {u : ℕ}

theorem Written.nil : Written whole [] := ⟨[], by simp, rfl⟩

theorem Written.append (hc : Written whole cs) (hd : Written whole ds) : Written whole (cs ++ ds) := by
  obtain ⟨us, hus, rfl⟩ := hc
  obtain ⟨vs, hvs, rfl⟩ := hd
  exact ⟨us ++ vs, List.forall_mem_append.2 ⟨hus, hvs⟩, List.flatMap_append⟩

theorem Written.ofUnit (hu : u < 0x110000) (hne : u ≠ 13) (hw : whole = true → isSurrogate u = false) :
    Written whole (Text.ofUnit u) :=
  ⟨[u], by simpa using ⟨hu, hne, hw⟩, by simp [ofUnits]⟩

theorem Written.flatMap {us : List ℕ} {f : ℕ → List Char} (h : ∀ u ∈ us, Written whole (f u)) :
    Written whole (us.flatMap f) := by
  induction us with
  | nil => exact .nil
  | cons u us ih =>
    rw [List.flatMap_cons]
    exact (h u (by simp)).append (ih fun v hv => h v (by simp [hv]))

/-- A character that holds a code point is its own or lies beyond ASCII. -/
theorem eq_of_mem_ofUnit {c : Char} (hu : u < 0x110000) (hc : c ∈ Text.ofUnit u) :
    c = Char.ofNat u ∧ c.toNat = u ∨ 0x80 ≤ c.toNat := by
  unfold Text.ofUnit at hc
  split at hc
  next hs =>
    right
    have hs : 0xD800 ≤ u ∧ u < 0xE000 := by simpa [isSurrogate] using hs
    have hv : (u - 0xD800 + standInBase).isValidChar := by
      unfold Nat.isValidChar standInBase
      omega
    rw [List.mem_singleton.1 hc, standIn, toNat_ofNat hv]
    unfold standInBase
    omega
  next hs =>
    have hown : (Char.ofNat u).toNat = u := toNat_ofNat (isValidChar_of_not_surrogate hu (by simpa using hs))
    split at hc
    · rcases List.mem_pair.1 hc with rfl | rfl
      · exact .inr (by decide)
      · exact .inl ⟨rfl, hown⟩
    · rw [List.mem_singleton.1 hc]
      exact .inl ⟨rfl, hown⟩

theorem Written.plain (h : Written whole cs) : '\r' ∉ cs := by
  obtain ⟨us, hus, rfl⟩ := h
  intro hmem
  obtain ⟨u, hu, hc⟩ := List.mem_flatMap.1 hmem
  obtain ⟨hlt, hne, -⟩ := hus u hu
  rcases eq_of_mem_ofUnit hlt hc with ⟨-, hown⟩ | hlarge
  · exact hne hown.symm
  · exact absurd hlarge (by decide)

/-- A character of ASCII is held as it is. -/
theorem ofUnit_ascii {c : Char} (h : c.toNat < 0x80) : Text.ofUnit c.toNat = [c] := by
  have hs : isSurrogate c.toNat = false := by
    simp [isSurrogate]
    omega
  have hm : c ≠ mark := by
    rintro rfl
    exact absurd h (by decide)
  have hr : isReserved c = false := by
    have hn : surrogate? c = none := if_neg (by unfold standInBase; omega)
    simp [isReserved, hn, hm]
  simp [Text.ofUnit, hs, Char.ofNat_toNat, hr]

theorem Written.of_ascii (h : ∀ c ∈ cs, c.toNat < 0x80 ∧ c ≠ '\r') : Written whole cs := by
  induction cs with
  | nil => exact .nil
  | cons c cs ih =>
    obtain ⟨hlt, hne⟩ := h c (by simp)
    have hs : isSurrogate c.toNat = false := by
      simp [isSurrogate]
      omega
    have hc : Written whole [c] := by
      have hw : Written whole (Text.ofUnit c.toNat) :=
        .ofUnit (by omega) (fun e => hne (Char.toNat_inj.1 e)) fun _ => hs
      rwa [ofUnit_ascii hlt] at hw
    exact hc.append (ih fun d hd => h d (by simp [hd]))

theorem Written.of_all (h : (cs.all fun c => c.toNat < 0x80 && c != '\r') = true) : Written whole cs :=
  .of_ascii (by simpa using h)

/-- The code points of a text are code points. -/
theorem lt_of_mem_units : ∀ {cs : List Char}, u ∈ units cs → u < 0x110000
  | [], h => nomatch h
  | [c], h => by
    rw [List.mem_singleton.1 h]
    exact lt_of_char c
  | c :: d :: rest, h => by
    unfold units at h
    split at h
    · rcases List.mem_cons.1 h with rfl | h
      · exact toNat_lt d
      · exact lt_of_mem_units h
    · rcases List.mem_cons.1 h with rfl | h
      · exact lt_of_char c
      · exact lt_of_mem_units h
where
  toNat_lt (c : Char) : c.toNat < 0x110000 := by
    have h := c.valid
    simp only [UInt32.isValidChar, Nat.isValidChar] at h
    change c.val.toNat < _
    omega
  lt_of_char (c : Char) : (surrogate? c).getD c.toNat < 0x110000 := by
    unfold surrogate?
    split
    · simp only [standInBase, Option.getD_some] at *
      omega
    · exact toNat_lt c

theorem unifyLineEnds_of_plain (h : '\r' ∉ cs) : unifyLineEnds cs = cs := by
  induction cs with
  | nil => rfl
  | cons c cs ih =>
    obtain ⟨hc, hcs⟩ := not_or.1 (List.mem_cons.not.1 h)
    rw [unifyLineEnds.eq_3 _ _ fun _ he _ => hc he.symm, ih hcs, if_neg (Ne.symm hc)]

end

end Text

/-! ## Bytes -/

namespace Utf8

section
variable {u : ℕ}

theorem toNat_ofNat {n : ℕ} (h : n < 256) : (UInt8.ofNat n).toNat = n := by
  simp
  omega

theorem payload?_of_mem {low high n : ℕ} (hlow : low ≤ n) (hhigh : n ≤ high) (h : n < 256) :
    payload? low high (UInt8.ofNat n) = some (n % 64) := by
  rw [payload?, toNat_ofNat h, if_pos ⟨hlow, hhigh⟩]

/-- The continuation byte of some bits. -/
theorem continuation_cons {value width low high more p : ℕ} {rest : List UInt8} (hp : p < 64) (hlow : low ≤ 0x80 + p)
    (hhigh : 0x80 + p ≤ high) :
    continuation value width low high (more + 1) (UInt8.ofNat (0x80 + p) :: rest) =
      continuation (value * 64 + p) (width + 1) 0x80 0xBF more rest := by
  have hmod : (0x80 + p) % 64 = p := by omega
  rw [continuation, payload?_of_mem hlow hhigh (by omega), hmod]

/-- The first byte of two. -/
theorem step_two (hlow : 0x80 ≤ u) (hhigh : u < 0x800) (bs : List UInt8) :
    step (UInt8.ofNat (0xC0 + u / 64)) bs = continuation (u / 64) 1 0x80 0xBF 1 bs := by
  unfold step
  rw [toNat_ofNat (by omega), if_neg (by omega), if_neg (by omega), if_pos (by omega)]
  congr 1
  omega

/-- The first byte of three: the byte after it keeps out what has a shorter form, and the halves of pairs. -/
theorem step_three (hlow : 0x800 ≤ u) (hhigh : u < 0x10000) (hs : ¬ (0xD800 ≤ u ∧ u < 0xE000)) :
    ∃ low high, low ≤ 0x80 + u / 64 % 64 ∧ 0x80 + u / 64 % 64 ≤ high ∧
      ∀ bs, step (UInt8.ofNat (0xE0 + u / 4096)) bs = continuation (u / 4096) 1 low high 2 bs := by
  have hbyte : (UInt8.ofNat (0xE0 + u / 4096)).toNat = 0xE0 + u / 4096 := toNat_ofNat (by omega)
  by_cases hfirst : u / 4096 = 0
  · refine ⟨0xA0, 0xBF, by omega, by omega, fun bs => ?_⟩
    rw [hfirst]
    rfl
  by_cases hpairs : u / 4096 = 13
  · refine ⟨0x80, 0x9F, by omega, by omega, fun bs => ?_⟩
    rw [hpairs]
    rfl
  refine ⟨0x80, 0xBF, by omega, by omega, fun bs => ?_⟩
  rw [step, hbyte, if_neg (by omega), if_neg (by omega), if_neg (by omega), if_neg (by omega), if_neg (by omega),
    if_pos (by omega)]
  congr 1
  omega

/-- The first byte of four: the byte after it keeps out what has a shorter form, and what lies behind the last code
point. -/
theorem step_four (hlow : 0x10000 ≤ u) (hhigh : u < 0x110000) :
    ∃ low high, low ≤ 0x80 + u / 4096 % 64 ∧ 0x80 + u / 4096 % 64 ≤ high ∧
      ∀ bs, step (UInt8.ofNat (0xF0 + u / 262144)) bs = continuation (u / 262144) 1 low high 3 bs := by
  have hbyte : (UInt8.ofNat (0xF0 + u / 262144)).toNat = 0xF0 + u / 262144 := toNat_ofNat (by omega)
  by_cases hfirst : u / 262144 = 0
  · refine ⟨0x90, 0xBF, by omega, by omega, fun bs => ?_⟩
    rw [hfirst]
    rfl
  by_cases hlast : u / 262144 = 4
  · refine ⟨0x80, 0x8F, by omega, by omega, fun bs => ?_⟩
    rw [hlast]
    rfl
  refine ⟨0x80, 0xBF, by omega, by omega, fun bs => ?_⟩
  rw [step, hbyte, if_neg (by omega), if_neg (by omega), if_neg (by omega), if_neg (by omega), if_neg (by omega),
    if_neg (by omega), if_neg (by omega), if_pos (by omega)]
  congr 1
  omega

/-- A code point is found again by its first byte. -/
theorem step_encodeUnit (hu : u < 0x110000) (hs : Text.isSurrogate u = false) (rest : List UInt8) :
    ∃ b tail, encodeUnit u = b :: tail ∧ step b (tail ++ rest) = .char (Char.ofNat u) (tail.length + 1) := by
  have hs : ¬ (0xD800 ≤ u ∧ u < 0xE000) := by simpa [Text.isSurrogate] using hs
  unfold encodeUnit
  extract_lets tail
  by_cases h1 : u < 0x80
  · refine ⟨UInt8.ofNat u, [], by rw [if_pos h1], ?_⟩
    simp only [step, toNat_ofNat (show u < 256 by omega), h1, if_true, List.length_nil]
  by_cases h2 : u < 0x800
  · refine ⟨UInt8.ofNat (0xC0 + u / 64), [tail 1], by rw [if_neg h1, if_pos h2], ?_⟩
    have hv : u / 64 * 64 + u / 1 % 64 = u := by omega
    rw [step_two (by omega) h2, List.cons_append, List.nil_append,
      continuation_cons (by omega) (by omega) (by omega), hv]
    rfl
  by_cases h3 : u < 0x10000
  · refine ⟨UInt8.ofNat (0xE0 + u / 4096), [tail 64, tail 1], by rw [if_neg h1, if_neg h2, if_pos h3], ?_⟩
    obtain ⟨low, high, hlow, hhigh, hstep⟩ := step_three (by omega) h3 hs
    have hv : (u / 4096 * 64 + u / 64 % 64) * 64 + u / 1 % 64 = u := by omega
    rw [hstep, List.cons_append, List.cons_append, List.nil_append, continuation_cons (by omega) hlow hhigh,
      continuation_cons (by omega) (by omega) (by omega), hv]
    rfl
  · refine ⟨UInt8.ofNat (0xF0 + u / 262144), [tail 4096, tail 64, tail 1], by rw [if_neg h1, if_neg h2, if_neg h3], ?_⟩
    obtain ⟨low, high, hlow, hhigh, hstep⟩ := step_four (by omega) hu
    have hv : ((u / 262144 * 64 + u / 4096 % 64) * 64 + u / 64 % 64) * 64 + u / 1 % 64 = u := by omega
    rw [hstep, List.cons_append, List.cons_append, List.cons_append, List.nil_append,
      continuation_cons (by omega) hlow hhigh, continuation_cons (by omega) (by omega) (by omega),
      continuation_cons (by omega) (by omega) (by omega), hv]
    rfl

variable {us : List ℕ}

/-- The code points of a text are found again one after the other. -/
theorem steps_flatMap_encodeUnit (h : ∀ u ∈ us, u < 0x110000 ∧ Text.isSurrogate u = false) {bound : ℕ}
    (room : (us.flatMap encodeUnit).length ≤ bound) :
    steps bound (us.flatMap encodeUnit) = us.map fun u => .char (Char.ofNat u) (encodeUnit u).length := by
  induction us generalizing bound with
  | nil => cases bound <;> rfl
  | cons u us ih =>
    obtain ⟨hu, hs⟩ := h u (by simp)
    obtain ⟨b, tail, hbytes, hstep⟩ := step_encodeUnit hu hs (us.flatMap encodeUnit)
    rw [List.flatMap_cons, hbytes] at room ⊢
    cases bound with
    | zero => simp at room
    | succ bound =>
      have hrest : (us.flatMap encodeUnit).length ≤ bound := by
        simp only [List.cons_append, List.length_cons, List.length_append] at room
        omega
      have hdrop : (b :: (tail ++ us.flatMap encodeUnit)).drop (tail.length + 1) = us.flatMap encodeUnit := by
        rw [List.drop_succ_cons, List.drop_left]
      rw [List.cons_append, steps, hstep, Step.width, hdrop, ih (fun v hv => h v (by simp [hv])) hrest,
        List.map_cons, hbytes, List.length_cons]

theorem collect_chars (h : ∀ u ∈ us, u < 0x110000 ∧ Text.isSurrogate u = false) (bytes : List UInt8)
    (position : ℕ) :
    collect bytes position (us.map fun u => .char (Char.ofNat u) (encodeUnit u).length) = .ok (Text.ofUnits us) := by
  induction us generalizing position with
  | nil => rfl
  | cons u us ih =>
    obtain ⟨hu, hs⟩ := h u (by simp)
    have hchar : (Char.ofNat u).toNat = u := Text.toNat_ofNat (Text.isValidChar_of_not_surrogate hu hs)
    rw [List.map_cons, collect, ih fun v hv => h v (by simp [hv]), hchar]
    rfl

end

end Utf8

section
variable {whole : Bool} {s : String} {bytes : List UInt8}

/-- A whole text has bytes. -/
theorem Utf8.encode?_of_written (h : Text.Written true s.toList) : ∃ bytes, encode? s = .ok bytes := by
  obtain ⟨us, hus, hheld⟩ := h
  have hunits : Text.units s.toList = us := by rw [← hheld, Text.units_ofUnits fun u hu => (hus u hu).1]
  cases hs : encode? s with
  | ok bytes => exact ⟨bytes, rfl⟩
  | error e =>
    obtain ⟨u, hu, hsur⟩ := encode?_faults_iff.1 ⟨e, hs⟩
    rw [(hus u (hunits ▸ hu)).2.2 rfl] at hsur
    cases hsur

theorem Utf8.eq_encode_of_encode? (h : encode? s = .ok bytes) : bytes = encode s := by
  unfold encode? at h
  split at h
  · cases h
  · exact (Except.ok.inj h).symm

/-- A text that is held code point by code point is found again in its bytes. -/
theorem Utf8.decode_of_encode? (hs : Text.ofUnits (Text.units s.toList) = s.toList) (h : encode? s = .ok bytes) :
    decode bytes = .ok s := by
  have hwhole : ∀ u ∈ Text.units s.toList, u < 0x110000 ∧ Text.isSurrogate u = false := by
    intro u hu
    refine ⟨Text.lt_of_mem_units hu, Bool.eq_false_iff.2 fun hsur => ?_⟩
    obtain ⟨e, he⟩ := encode?_faults_iff.2 ⟨u, hu, hsur⟩
    rw [he] at h
    cases h
  have hbytes : bytes = (Text.units s.toList).flatMap encodeUnit := eq_encode_of_encode? h
  rw [decode, hbytes, steps_flatMap_encodeUnit hwhole le_rfl, collect_chars hwhole, hs]
  exact congrArg Except.ok String.ofList_toList

/-- **Files.** A text of this kind is read as it was written. -/
theorem Disk.textOf_encode (hs : Text.Written whole s.toList) (h : Utf8.encode? s = .ok bytes) :
    Disk.textOf bytes = .ok s := by
  have plain := hs.plain
  obtain ⟨us, hus, hheld⟩ := hs
  have hunits : Text.units s.toList = us := by rw [← hheld, Text.units_ofUnits fun u hu => (hus u hu).1]
  rw [Disk.textOf, Utf8.decode_of_encode? (by rw [hunits, hheld]) h]
  refine congrArg Except.ok ?_
  rw [Text.unifyLineEnds_of_plain plain, String.ofList_toList]

/-- A whole text is read from its bytes. -/
theorem Disk.textOf_of_whole (hs : Text.Written true s.toList) : Disk.textOf (Utf8.encode s) = .ok s := by
  obtain ⟨bytes, hbytes⟩ := Utf8.encode?_of_written hs
  have hread := Disk.textOf_encode hs hbytes
  rwa [Utf8.eq_encode_of_encode? hbytes] at hread

end

end Assay
