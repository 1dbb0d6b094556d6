/-!
# Rounding a quotient

One rule serves every rounding of the library: the nearest integer to a quotient, a tie going to the
even neighbour. `roundQuotient_within` says that the result is within half a unit of the quotient,
`roundQuotient_mul` that a whole quotient is left alone.
-/

namespace Assay

/-- The integer nearest to `num / den`, a tie going to the even neighbour. -/
def roundQuotient (num den : Nat) : Nat :=
  let q := num / den
  let r := num % den
  if 2 * r < den then q
  else if den < 2 * r then q + 1
  else if q % 2 = 0 then q else q + 1

/-- Rounding moves a quotient by at most half a unit. -/
theorem roundQuotient_within {num den : Nat} (h : 0 < den) :
    2 * (roundQuotient num den * den) ≤ 2 * num + den ∧
      2 * num ≤ 2 * (roundQuotient num den * den) + den := by
  have hd : den * (num / den) + num % den = num := Nat.div_add_mod num den
  have hm : num % den < den := Nat.mod_lt num h
  have hc : num / den * den = den * (num / den) := Nat.mul_comm _ _
  have hs : (num / den + 1) * den = den * (num / den) + den := by
    rw [Nat.add_mul, Nat.one_mul, hc]
  simp only [roundQuotient]
  split
  · omega
  · split
    · omega
    · split <;> omega

/-- A quotient that is whole is left alone. -/
theorem roundQuotient_mul {n den : Nat} (h : 0 < den) : roundQuotient (n * den) den = n := by
  simp [roundQuotient, Nat.mul_div_cancel n h, h]

end Assay
