import TypedFormula.Proofs.NearestFloats

namespace TypedFormula

theorem le_roundDiv {n d m : Nat} (positive : 0 < d) (reached : (m : ℚ) ≤ (n : ℚ) / d) : m ≤ roundDiv n d := by
  have whole : m ≤ n / d := by
    rw [Nat.le_div_iff_mul_le positive]
    rw [le_div_iff₀ (by exact_mod_cast positive)] at reached
    exact_mod_cast reached
  unfold roundDiv
  dsimp only
  split <;> omega

theorem roundDiv_le {n d m : Nat} (positive : 0 < d) (below : (n : ℚ) / d < m) : roundDiv n d ≤ m := by
  have whole : n / d < m := by
    rw [Nat.div_lt_iff_lt_mul positive]
    rw [div_lt_iff₀ (by exact_mod_cast positive)] at below
    exact_mod_cast below
  unfold roundDiv
  dsimp only
  split <;> omega

-- From halfway below an even number on, a quotient is rounded to at least that number.
theorem even_le_roundDiv {n d m : Nat} (positive : 0 < d) (some : 0 < m) :
    2 * m ≤ roundDiv n d ↔ ((2 * m : ℕ) : ℚ) - 1 / 2 ≤ (n : ℚ) / d := by
  obtain ⟨k,rfl⟩ := Nat.exists_eq_succ_of_ne_zero some.ne'
  have counted : ((2 * k.succ : ℕ) : ℚ) - 1 / 2 ≤ (n : ℚ) / d ↔ 4 * (k * d) + 3 * d ≤ 2 * n := by
    rw [le_div_iff₀ (by exact_mod_cast positive),← Nat.cast_le (α := ℚ)]
    push_cast
    constructor <;> intro bound <;> linarith
  rw [counted]
  have split := Nat.div_add_mod' n d
  have rest := Nat.mod_lt n positive
  unfold roundDiv
  dsimp only
  generalize n / d = q at split ⊢
  generalize n % d = r at split rest ⊢
  rcases Nat.lt_trichotomy q (2 * k + 1) with below | rfl | above
  · have product : q * d ≤ 2 * k * d := Nat.mul_le_mul_right d (by omega)
    rw [Nat.mul_assoc] at product
    constructor
    · split <;> omega
    · omega
  · rw [Nat.add_mul,Nat.mul_assoc,Nat.one_mul] at split
    constructor
    · split <;> omega
    · intro reached
      rw [if_pos (by omega)]
      omega
  · have product : (2 * k + 2) * d ≤ q * d := Nat.mul_le_mul_right d (by omega)
    rw [Nat.add_mul,Nat.mul_assoc] at product
    constructor
    · omega
    · split <;> omega

namespace Binary

-- Halfway between the largest number and the power of two behind it.
def Format.overflowPoint (f : Format) : ℚ :=
  (2 ^ (f.fractionBits + 1) - 1 / 2) * 2 ^ (f.unitExponent + twoPow f.exponentBits - 3)

variable (f : Format)

theorem overflowPoint_pos : 0 < f.overflowPoint := by
  have large : (1 : ℚ) ≤ 2 ^ (f.fractionBits + 1) := one_le_pow₀ one_le_two
  exact mul_pos (by linarith) (by positivity)

theorem overflowPoint_bounds :
    (2 : ℚ) ^ (f.fractionBits + (f.unitExponent + twoPow f.exponentBits - 3)) < f.overflowPoint ∧
      f.overflowPoint < 2 ^ (f.fractionBits + 1 + (f.unitExponent + twoPow f.exponentBits - 3)) := by
  have large : (1 : ℚ) ≤ 2 ^ f.fractionBits := one_le_pow₀ one_le_two
  have unit : (0 : ℚ) < 2 ^ (f.unitExponent + twoPow f.exponentBits - 3) := by positivity
  unfold Format.overflowPoint
  rw [zpow_add₀ two_ne_zero,zpow_add₀ two_ne_zero,zpow_add₀ two_ne_zero,zpow_natCast,pow_succ,zpow_one]
  constructor
  · gcongr
    linarith
  · gcongr
    linarith

-- The units that a number is counted in: fewer than fill one more bit than the fraction has, and as many
-- as fill the fraction unless the unit is the least one.
theorem units_bounds {n d : Nat} (filled : 0 < n) (positive : 0 < d) {unit : Int}
    (is : max f.unitExponent (floorLog2 n d - f.fractionBits) = unit) :
    (n : ℚ) / d < 2 ^ (f.fractionBits + 1 + unit) ∧
      (unit = f.unitExponent ∨ (2 : ℚ) ^ (f.fractionBits + unit) ≤ (n : ℚ) / d) := by
  have value : (0 : ℚ) < (n : ℚ) / d := div_pos (by exact_mod_cast filled) (by exact_mod_cast positive)
  have least : (2 : ℚ) ^ Int.log 2 ((n : ℚ) / d) ≤ (n : ℚ) / d := by
    exact_mod_cast Int.zpow_log_le_self one_lt_two value
  have below : (n : ℚ) / d < 2 ^ (Int.log 2 ((n : ℚ) / d) + 1) := by
    exact_mod_cast Int.lt_zpow_succ_log_self one_lt_two ((n : ℚ) / d)
  rw [floorLog2_eq filled positive] at is
  refine ⟨below.trans_le (zpow_le_zpow_right₀ one_le_two (by omega)),?_⟩
  rcases max_choice f.unitExponent (Int.log 2 ((n : ℚ) / d) - f.fractionBits) with low | high
  · exact .inl (is ▸ low)
  · exact .inr ((zpow_le_zpow_right₀ one_le_two (by omega)).trans least)

theorem overflowPoint_eq : f.overflowPoint =
    2 ^ (f.fractionBits + 1 + (f.unitExponent + twoPow f.exponentBits - 3)) -
      2 ^ (f.unitExponent + twoPow f.exponentBits - 4) := by
  have half : f.unitExponent + twoPow f.exponentBits - 3 = f.unitExponent + twoPow f.exponentBits - 4 + 1 := by ring
  unfold Format.overflowPoint
  rw [zpow_add₀ two_ne_zero,half,zpow_add₀ two_ne_zero,zpow_add₀ two_ne_zero,zpow_natCast,pow_succ,zpow_one]
  ring

theorem overflowPoint_binary32 : binary32.overflowPoint = 2 ^ (128 : ℤ) - 2 ^ (103 : ℤ) := by
  have top : (binary32.fractionBits : ℤ) + 1 +
      (binary32.unitExponent + twoPow binary32.exponentBits - 3) = 128 := by decide
  have last : binary32.unitExponent + twoPow binary32.exponentBits - 4 = 103 := by decide
  rw [overflowPoint_eq,top,last]

-- A count of units on some level against the first pattern past all levels: on the last level it reaches
-- that with twice the units that start a level.
theorem level_inner {levels unit level count : Nat} (inner : level + 3 < levels) (some : 0 < unit)
    (few : count ≤ 2 * unit) : ¬(levels - 1) * unit ≤ level * unit + count := by
  have room : (level + 3) * unit ≤ (levels - 1) * unit := Nat.mul_le_mul_right _ (by omega)
  rw [Nat.add_mul] at room
  omega

theorem level_last {levels unit level count : Nat} (last : level + 3 = levels) :
    (levels - 1) * unit ≤ level * unit + count ↔ 2 * unit ≤ count := by
  rw [show levels - 1 = level + 2 by omega,Nat.add_mul]
  omega

theorem level_outer {levels unit level count : Nat} (outer : levels < level + 3) (many : unit ≤ count) :
    (levels - 1) * unit ≤ level * unit + count := by
  have room : (levels - 1) * unit ≤ (level + 1) * unit := Nat.mul_le_mul_right _ (by omega)
  rw [Nat.add_mul,Nat.one_mul] at room
  omega

-- The nearest number is infinity from that point on. Only in the last binade does the point itself decide.
theorem nearest_overflow (wide : 4 ≤ twoPow f.exponentBits) {n d : Nat} (positive : 0 < d) :
    f.nearest n d = f.infinityBits ↔ f.overflowPoint ≤ (n : ℚ) / d := by
  by_cases zero : n = 0
  · have infinite : 0 < f.infinityBits := Nat.mul_pos (by omega) (twoPow_pos _)
    have none : f.nearest n d = 0 := if_pos zero
    rw [none,zero,Nat.cast_zero,zero_div]
    exact iff_of_false (by omega) (not_le.mpr (overflowPoint_pos f))
  obtain ⟨low,high⟩ := overflowPoint_bounds f
  unfold Format.nearest
  rw [if_neg zero]
  dsimp only
  rw [min_eq_right_iff,Format.infinityBits]
  generalize is : max f.unitExponent (floorLog2 n d - f.fractionBits) = unit
  obtain ⟨above,full⟩ := units_bounds f (Nat.pos_of_ne_zero zero) positive is
  obtain ⟨positiveB,ratio⟩ := scaled_ratio n d unit positive
  generalize (scaled n d unit).1 = a at ratio ⊢
  generalize (scaled n d unit).2 = b at ratio positiveB ⊢
  obtain ⟨k,rfl⟩ := Int.le.dest (show f.unitExponent ≤ unit by omega)
  rw [add_sub_cancel_left,Int.toNat_natCast]
  have scale : (0 : ℚ) < 2 ^ (f.unitExponent + k) := by positivity
  have count := twoPow_pos f.fractionBits
  -- Below the last binade nothing reaches infinity, above it everything does.
  rcases Nat.lt_trichotomy (k + 3) (twoPow f.exponentBits) with inner | last | outer
  · have units : roundDiv a b ≤ 2 * twoPow f.fractionBits := by
      refine roundDiv_le positiveB ?_
      rw [ratio,div_lt_iff₀ scale,twoPow_eq]
      push_cast
      rwa [← pow_succ',← zpow_natCast,← zpow_add₀ two_ne_zero]
    refine iff_of_false (level_inner inner count units) (not_le.mpr ?_)
    exact (above.trans_le (zpow_le_zpow_right₀ one_le_two (by omega))).trans low
  · have point : f.overflowPoint = (((2 * twoPow f.fractionBits : ℕ) : ℚ) - 1 / 2) * 2 ^ (f.unitExponent + k) := by
      unfold Format.overflowPoint
      rw [twoPow_eq f.fractionBits,pow_succ',
        show f.unitExponent + twoPow f.exponentBits - 3 = f.unitExponent + k by omega]
      push_cast
      rfl
    rw [level_last last,even_le_roundDiv positiveB count,ratio,le_div_iff₀ scale,point]
  · have filled := full.resolve_left (by omega)
    have units : twoPow f.fractionBits ≤ roundDiv a b := by
      refine le_roundDiv positiveB ?_
      rw [ratio,le_div_iff₀ scale,twoPow_eq]
      push_cast
      rwa [← zpow_natCast,← zpow_add₀ two_ne_zero]
    refine iff_of_true (level_outer outer units) ?_
    exact high.le.trans ((zpow_le_zpow_right₀ one_le_two (by omega)).trans filled)

-- A decimal becomes infinity from that point on too: those settled by their length lie far from it.
theorem ofScientific_overflow {f : Format} (moderate : f.Moderate) (wide : 4 ≤ twoPow f.exponentBits)
    (n : Nat) (e : Int) : f.ofScientific n e = f.infinityBits ↔ f.overflowPoint ≤ n * 10 ^ e := by
  have infinite : f.infinityBits ≠ 0 := (Nat.mul_pos (by omega) (twoPow_pos _)).ne'
  obtain ⟨low,high⟩ := overflowPoint_bounds f
  have least := moderate.least
  have greatest := moderate.greatest
  by_cases zero : n = 0
  · have none : f.ofScientific n e = 0 := if_pos zero
    rw [none,zero,Nat.cast_zero,zero_mul]
    exact iff_of_false infinite.symm (not_le.mpr (overflowPoint_pos f))
  obtain ⟨enough,short,long⟩ := digitCount_bounds (Nat.pos_of_ne_zero zero)
  have power : (0 : ℚ) < 10 ^ e := by positivity
  by_cases large : 400 < (digitCount n : ℤ) + e
  · have top : f.ofScientific n e = f.infinityBits := by
      unfold Format.ofScientific
      dsimp only
      rw [if_neg zero,if_pos large]
    refine iff_of_true top (high.le.trans ?_)
    calc (2 : ℚ) ^ (f.fractionBits + 1 + (f.unitExponent + twoPow f.exponentBits - 3))
        ≤ 10 ^ (400 : ℤ) := (twoPow_moderate (by omega) (by omega)).2
      _ ≤ 10 ^ (((digitCount n - 1 : ℕ) : ℤ) + e) := zpow_le_zpow_right₀ (by norm_num) (by omega)
      _ = 10 ^ (digitCount n - 1) * 10 ^ e := by rw [zpow_add₀ (by norm_num),zpow_natCast]
      _ ≤ n * 10 ^ e := by
        have enough : (10 : ℚ) ^ (digitCount n - 1) ≤ n := by exact_mod_cast enough
        gcongr
  by_cases small : (digitCount n : ℤ) + e < -400
  · have bottom : f.ofScientific n e = 0 := by
      unfold Format.ofScientific
      dsimp only
      rw [if_neg zero,if_neg large,if_pos small]
    rw [bottom]
    refine iff_of_false infinite.symm (not_le.mpr ?_)
    calc (n : ℚ) * 10 ^ e < 10 ^ digitCount n * 10 ^ e := by
          have short : (n : ℚ) < 10 ^ digitCount n := by exact_mod_cast short
          gcongr
      _ = 10 ^ ((digitCount n : ℤ) + e) := by rw [zpow_add₀ (by norm_num),zpow_natCast]
      _ ≤ 10 ^ (-400 : ℤ) := zpow_le_zpow_right₀ (by norm_num) small.le
      _ ≤ 2 ^ (f.fractionBits + (f.unitExponent + twoPow f.exponentBits - 3)) :=
        (twoPow_moderate (by omega) (by omega)).1
      _ ≤ f.overflowPoint := low.le
  obtain ⟨_,_,positive,ratio,same⟩ := ofScientific_within f (e := e) zero (by omega) (by omega)
  rw [same,nearest_overflow f wide positive,ratio]

end Binary
end TypedFormula
