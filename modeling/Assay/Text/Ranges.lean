/-!
# Character tables

A table of characters is a list of closed ranges of code points. Membership is all that the text
modules ask of one.
-/

namespace Assay.Text

/-- The first range of a table that holds a code point. -/
def findRange? (table : List (Nat × Nat)) (n : Nat) : Option (Nat × Nat) :=
  table.find? fun r => r.1 ≤ n && n ≤ r.2

/-- Whether some range of a table holds a code point. -/
def inRanges (table : List (Nat × Nat)) (n : Nat) : Bool :=
  table.any fun r => r.1 ≤ n && n ≤ r.2

theorem inRanges_eq_isSome (table : List (Nat × Nat)) (n : Nat) :
    inRanges table n = (findRange? table n).isSome := by
  unfold inRanges findRange?
  rw [Bool.eq_iff_iff, List.any_eq_true, List.find?_isSome]

end Assay.Text
