/-!
# Code points

Documents hold sequences of code points, and a structured document may escape half of a surrogate
pair on its own, which is no character. Text is a sequence of characters, so such a half is held as a
stand-in from the last private-use plane, and a character that could be taken for a stand-in is held
behind a mark. `units` reads the code points of a text and `ofUnits` writes them;
`units_ofUnits` says that reading what was written gives the same code points.
-/

namespace Assay.Text

/-- The first of the 2048 stand-ins. -/
def standInBase : Nat := 0x10D800

/-- What a reserved character is held behind: the last code point, which is no character of any
script. -/
def mark : Char := Char.ofNat 0x10FFFF

/-- Half of a surrogate pair. -/
def isSurrogate (unit : Nat) : Bool := 0xD800 ≤ unit && unit < 0xE000

/-- The character that holds the place of a surrogate. -/
def standIn (unit : Nat) : Char := Char.ofNat (unit - 0xD800 + standInBase)

/-- The surrogate whose place a character holds. -/
def surrogate? (c : Char) : Option Nat :=
  if standInBase ≤ c.toNat ∧ c.toNat < standInBase + 0x800 then
    some (c.toNat - standInBase + 0xD800)
  else none

/-- Whether a character is held behind the mark. -/
def isReserved (c : Char) : Bool := (surrogate? c).isSome || c == mark

/-- How a code point is held. -/
def ofUnit (unit : Nat) : List Char :=
  if isSurrogate unit then [standIn unit]
  else if isReserved (Char.ofNat unit) then [mark, Char.ofNat unit]
  else [Char.ofNat unit]

/-- How a sequence of code points is held. -/
def ofUnits (us : List Nat) : List Char := us.flatMap ofUnit

/-- The code points of a text. -/
def units : List Char → List Nat
  | [] => []
  | [c] => [(surrogate? c).getD c.toNat]
  | c :: d :: rest =>
    if c = mark then d.toNat :: units rest
    else (surrogate? c).getD c.toNat :: units (d :: rest)

/-- The number of code points of a text. -/
def size (cs : List Char) : Nat := (units cs).length

/-- A text without its first code point. -/
def tail : List Char → List Char
  | c :: d :: rest => if c = mark then rest else d :: rest
  | _ => []

/-- Characters as they are held, none of which stands for a surrogate. -/
def hold (cs : List Char) : List Char := ofUnits (cs.map Char.toNat)

/-- Order of texts by their code points. -/
def before (a b : String) : Bool :=
  let (x, y) := (units a.toList, units b.toList)
  decide (x < y) || (x == y && decide (a < b))

theorem toNat_ofNat {n : Nat} (h : n.isValidChar) : (Char.ofNat n).toNat = n := by
  rw [Char.ofNat, dif_pos h]
  rfl

theorem isValidChar_of_not_surrogate {n : Nat} (hn : n < 0x110000)
    (hs : isSurrogate n = false) : n.isValidChar := by
  simp [isSurrogate] at hs
  unfold Nat.isValidChar
  omega

theorem mark_not_surrogate : surrogate? mark = none := by decide

/-- The code points of a text that starts with a code point as it is held. -/
theorem units_ofUnit_append {u : Nat} (hu : u < 0x110000) (cs : List Char) :
    units (ofUnit u ++ cs) = u :: units cs := by
  have cons : ∀ (c : Char), c ≠ mark → units (c :: cs) = (surrogate? c).getD c.toNat :: units cs := by
    intro c hc
    cases cs with
    | nil => simp [units]
    | cons d rest => simp [units, hc]
  unfold ofUnit
  by_cases hs : isSurrogate u = true
  · have hv : (u - 0xD800 + standInBase).isValidChar := by
      simp [isSurrogate] at hs
      unfold Nat.isValidChar standInBase
      omega
    have hn : (standIn u).toNat = u - 0xD800 + standInBase := toNat_ofNat hv
    have hm : standIn u ≠ mark := by
      intro h
      have := congrArg Char.toNat h
      rw [hn] at this
      simp [isSurrogate] at hs
      simp [mark, standInBase] at this
      have e : (Char.ofNat 0x10FFFF).toNat = 0x10FFFF := by decide
      omega
    have hsur : surrogate? (standIn u) = some u := by
      simp [isSurrogate] at hs
      unfold surrogate?
      rw [hn]
      simp [standInBase]
      omega
    rw [if_pos hs]
    simp [cons _ hm, hsur]
  · have hs' : isSurrogate u = false := by simpa using hs
    have hn : (Char.ofNat u).toNat = u := toNat_ofNat (isValidChar_of_not_surrogate hu hs')
    rw [if_neg hs]
    by_cases hr : isReserved (Char.ofNat u) = true
    · rw [if_pos hr]
      simp [units, hn]
    · rw [if_neg hr]
      simp [isReserved] at hr
      simp [cons _ hr.2, hr.1, hn]

/-- Reading what was written gives the same code points. -/
theorem units_ofUnits {us : List Nat} (h : ∀ u ∈ us, u < 0x110000) : units (ofUnits us) = us := by
  induction us with
  | nil => rfl
  | cons u rest ih =>
    have := units_ofUnit_append (h u (by simp)) (ofUnits rest)
    simp [ofUnits] at this ih ⊢
    rw [this, ih fun v hv => h v (by simp [hv])]

end Assay.Text
