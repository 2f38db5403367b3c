namespace TypedFormula

-- The integer nearest to n / d; of two equally near the even one.
def roundDiv (n d : Nat) : Nat :=
  let q := n / d
  let twice := 2 * (n % d)
  if d < twice ∨ (twice = d ∧ q % 2 = 1) then q + 1 else q

theorem roundDiv_mul (n d : Nat) (positive : 0 < d) : roundDiv (n * d) d = n := by
  have nonzero : d ≠ 0 := by omega
  simp [roundDiv,Nat.mul_div_cancel n positive,Nat.mul_mod_left,nonzero.symm]

-- The integer nearest to n / d; of two equally near the larger one.
def roundHalfUp (n d : Nat) : Nat := (2 * n + d) / (2 * d)

end TypedFormula
