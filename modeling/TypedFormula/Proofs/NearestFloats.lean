import Mathlib.Data.Int.Log
import Mathlib.Tactic
import TypedFormula.Binary.Shortest

namespace TypedFormula

theorem twoPow_eq (n : Nat) : twoPow n = 2 ^ n := rfl

theorem tenPow_eq (n : Nat) : tenPow n = 10 ^ n := rfl

theorem roundDiv_mul_right (n d k : Nat) (positive : 0 < k) : roundDiv (n * k) (d * k) = roundDiv n d := by
  have less : d * k < 2 * (n % d * k) ↔ d < 2 * (n % d) := by
    rw [← Nat.mul_assoc,Nat.mul_lt_mul_right positive]
  have equal : 2 * (n % d * k) = d * k ↔ 2 * (n % d) = d := by
    rw [← Nat.mul_assoc,Nat.mul_right_cancel_iff positive]
  unfold roundDiv
  simp only [Nat.mul_div_mul_right n d positive,Nat.mul_mod_mul_right,less,equal]

theorem roundDiv_congr {n d m c : Nat} (one : 0 < d) (two : 0 < c) (same : n * c = m * d) :
    roundDiv n d = roundDiv m c := by
  rw [← roundDiv_mul_right n d c two,same,Nat.mul_comm d c,roundDiv_mul_right m c d one]

namespace Binary

theorem scaled_ratio (n d : Nat) (e : Int) (positive : 0 < d) :
    0 < (scaled n d e).2 ∧ ((scaled n d e).1 : ℚ) / (scaled n d e).2 = (n : ℚ) / d / 2 ^ e := by
  unfold scaled
  split
  · rename_i up
    refine ⟨Nat.mul_pos positive (twoPow_pos _),?_⟩
    obtain ⟨k,rfl⟩ := Int.eq_ofNat_of_zero_le up
    rw [Int.toNat_natCast,twoPow_eq]
    push_cast
    rw [zpow_natCast,div_div]
  · rename_i down
    refine ⟨positive,?_⟩
    obtain ⟨k,same⟩ := Int.eq_ofNat_of_zero_le (show 0 ≤ -e by omega)
    rw [same,Int.toNat_natCast,twoPow_eq,show e = -(k : ℤ) by omega]
    push_cast
    rw [zpow_neg,zpow_natCast,div_inv_eq_mul]
    ring

theorem floorLog2_eq {n d : Nat} (some : 0 < n) (positive : 0 < d) :
    floorLog2 n d = Int.log 2 ((n : ℚ) / d) := by
  have value : (0 : ℚ) < (n : ℚ) / d := div_pos (by exact_mod_cast some) (by exact_mod_cast positive)
  have nLow : (2 : ℚ) ^ Nat.log2 n ≤ n := by exact_mod_cast Nat.log2_self_le some.ne'
  have nHigh : (n : ℚ) < 2 ^ (Nat.log2 n + 1) := by exact_mod_cast Nat.lt_log2_self
  have dLow : (2 : ℚ) ^ Nat.log2 d ≤ d := by exact_mod_cast Nat.log2_self_le positive.ne'
  have dHigh : (d : ℚ) < 2 ^ (Nat.log2 d + 1) := by exact_mod_cast Nat.lt_log2_self
  have dPositive : (0 : ℚ) < d := by exact_mod_cast positive
  -- The difference of the logarithms is the result or one too much.
  have high : (n : ℚ) / d < 2 ^ ((Nat.log2 n : ℤ) - Nat.log2 d + 1) := by
    rw [div_lt_iff₀ dPositive]
    calc (n : ℚ) < 2 ^ (Nat.log2 n + 1) := nHigh
      _ = 2 ^ ((Nat.log2 n : ℤ) - Nat.log2 d + 1) * 2 ^ Nat.log2 d := by
        rw [← zpow_natCast,← zpow_natCast,← zpow_add₀ two_ne_zero]
        congr 1
        push_cast
        ring
      _ ≤ _ := by gcongr
  have low : (2 : ℚ) ^ ((Nat.log2 n : ℤ) - Nat.log2 d - 1) < (n : ℚ) / d := by
    rw [lt_div_iff₀ dPositive]
    calc (2 : ℚ) ^ ((Nat.log2 n : ℤ) - Nat.log2 d - 1) * d
        < 2 ^ ((Nat.log2 n : ℤ) - Nat.log2 d - 1) * 2 ^ (Nat.log2 d + 1) := by gcongr
      _ = 2 ^ Nat.log2 n := by
        rw [← zpow_natCast,← zpow_natCast,← zpow_add₀ two_ne_zero]
        congr 1
        push_cast
        ring
      _ ≤ n := nLow
  unfold floorLog2
  dsimp only
  generalize (Nat.log2 n : ℤ) - Nat.log2 d = e at high low ⊢
  obtain ⟨positiveB,ratio⟩ := scaled_ratio n d e positive
  have reaches : (scaled n d e).2 ≤ (scaled n d e).1 ↔ (2 : ℚ) ^ e ≤ (n : ℚ) / d := by
    rw [← one_le_div (by positivity : (0 : ℚ) < 2 ^ e),← ratio,one_le_div (by exact_mod_cast positiveB)]
    exact Nat.cast_le.symm
  split
  · rename_i fits
    exact le_antisymm ((Int.zpow_le_iff_le_log one_lt_two value).mp (reaches.mp fits))
      (Int.lt_add_one_iff.mp ((Int.lt_zpow_iff_log_lt one_lt_two value).mp high))
  · rename_i short
    have below : (n : ℚ) / d < 2 ^ e := lt_of_not_ge (mt reaches.mpr short)
    exact le_antisymm ((Int.zpow_le_iff_le_log one_lt_two value).mp low.le)
      (Int.lt_add_one_iff.mp (by
        rw [sub_add_cancel]
        exact (Int.lt_zpow_iff_log_lt one_lt_two value).mp below))

theorem ratio_eq_iff {n d m c : Nat} (one : 0 < d) (two : 0 < c) :
    (n : ℚ) / d = (m : ℚ) / c ↔ n * c = m * d := by
  rw [div_eq_div_iff (by exact_mod_cast one.ne') (by exact_mod_cast two.ne')]
  exact_mod_cast Iff.rfl

theorem nearest_congr (f : Format) {n d m c : Nat} (one : 0 < d) (two : 0 < c)
    (same : (n : ℚ) / d = (m : ℚ) / c) : f.nearest n d = f.nearest m c := by
  unfold Format.nearest
  by_cases zero : n = 0
  · have other : m = 0 := by
      have product := (ratio_eq_iff one two).mp same
      rw [zero,Nat.zero_mul] at product
      exact (Nat.mul_eq_zero.mp product.symm).resolve_right one.ne'
    rw [if_pos zero,if_pos other]
  · have other : m ≠ 0 := by
      rintro rfl
      have product := (ratio_eq_iff one two).mp same
      rw [Nat.zero_mul] at product
      exact zero ((Nat.mul_eq_zero.mp product).resolve_right two.ne')
    rw [if_neg zero,if_neg other,floorLog2_eq (Nat.pos_of_ne_zero zero) one,
      floorLog2_eq (Nat.pos_of_ne_zero other) two,same]
    dsimp only
    generalize max f.unitExponent (Int.log 2 ((m : ℚ) / c) - f.fractionBits) = unit
    obtain ⟨left,leftRatio⟩ := scaled_ratio n d unit one
    obtain ⟨right,rightRatio⟩ := scaled_ratio m c unit two
    rw [roundDiv_congr left right ((ratio_eq_iff left right).mp (by rw [leftRatio,rightRatio,same]))]

-- A number that the format has is the nearest to itself. Its significand is full unless its exponent is
-- the least one.
theorem nearest_exact (f : Format) {n d significand : Nat} {e : Int} (positive : 0 < d)
    (filled : 0 < significand) (value : (n : ℚ) / d = significand * 2 ^ e)
    (room : significand < 2 ^ (f.fractionBits + 1)) (low : f.unitExponent ≤ e)
    (full : e = f.unitExponent ∨ 2 ^ f.fractionBits ≤ significand) :
    f.nearest n d = min ((e - f.unitExponent).toNat * twoPow f.fractionBits + significand) f.infinityBits := by
  have significandPositive : (0 : ℚ) < significand := by exact_mod_cast filled
  have valuePositive : (0 : ℚ) < (n : ℚ) / d := by rw [value]; positivity
  have some : 0 < n := by
    refine Nat.pos_of_ne_zero ?_
    rintro rfl
    simp at valuePositive
  have log : Int.log 2 ((n : ℚ) / d) < e + f.fractionBits + 1 := by
    refine (Int.lt_zpow_iff_log_lt one_lt_two valuePositive).mp ?_
    rw [value,show e + f.fractionBits + 1 = ((f.fractionBits + 1 : ℕ) : ℤ) + e by push_cast; ring]
    rw [Nat.cast_ofNat,zpow_add₀ two_ne_zero,zpow_natCast]
    have bounded : (significand : ℚ) < 2 ^ (f.fractionBits + 1) := by exact_mod_cast room
    gcongr
  -- The unit in the last place is the exponent of the number itself.
  have unit : max f.unitExponent (Int.log 2 ((n : ℚ) / d) - f.fractionBits) = e := by
    rcases full with least | full
    · rw [max_eq_left (by omega),least]
    · have reached : e + f.fractionBits ≤ Int.log 2 ((n : ℚ) / d) := by
        refine (Int.zpow_le_iff_le_log one_lt_two valuePositive).mp ?_
        rw [value,show e + (f.fractionBits : ℤ) = (f.fractionBits : ℤ) + e by ring]
        rw [Nat.cast_ofNat,zpow_add₀ two_ne_zero,zpow_natCast]
        have bounded : (2 : ℚ) ^ f.fractionBits ≤ significand := by exact_mod_cast full
        gcongr
      rw [show Int.log 2 ((n : ℚ) / d) - f.fractionBits = e by omega,max_eq_right low]
  unfold Format.nearest
  rw [if_neg some.ne',floorLog2_eq some positive,unit]
  dsimp only
  obtain ⟨positiveB,ratio⟩ := scaled_ratio n d e positive
  have whole : (scaled n d e).1 = significand * (scaled n d e).2 := by
    have product := (ratio_eq_iff (m := significand) positiveB one_pos).mp (by
      rw [ratio,value,Nat.cast_one,div_one,mul_div_assoc,div_self (by positivity),mul_one])
    rw [Nat.mul_one] at product
    exact product
  rw [whole,roundDiv_mul _ _ positiveB]

theorem decode_finite (f : Format) {bits : Nat} (finite : bits < f.infinityBits) :
    ∃ significand e, f.decode bits = .finite false significand e ∧ significand < 2 ^ (f.fractionBits + 1) ∧
      f.unitExponent ≤ e ∧ (e = f.unitExponent ∨ 2 ^ f.fractionBits ≤ significand) ∧
      (e - f.unitExponent).toNat * twoPow f.fractionBits + significand = bits := by
  have unit : 0 < twoPow f.fractionBits := twoPow_pos _
  have small : bits < f.signBit := by
    refine Nat.lt_trans finite ?_
    have positive := twoPow_pos f.exponentBits
    rw [Format.infinityBits,Format.signBit,twoPow_eq (_ + _),pow_add,← twoPow_eq,← twoPow_eq]
    exact Nat.mul_lt_mul_of_pos_right (by omega) unit
  have magnitude : f.magnitude bits = bits := Nat.mod_eq_of_lt small
  have split := Nat.div_add_mod' bits (twoPow f.fractionBits)
  have fraction := Nat.mod_lt bits unit
  have double : 2 ^ (f.fractionBits + 1) = twoPow f.fractionBits * 2 := rfl
  unfold Format.decode
  dsimp only
  rw [magnitude,Nat.div_eq_of_lt small,if_neg (by omega),if_neg finite.ne]
  split
  · rename_i level
    refine ⟨_,_,rfl,by omega,le_rfl,.inl rfl,?_⟩
    rw [level,Nat.zero_mul,Nat.zero_add] at split
    rw [Int.sub_self,Int.toNat_zero,Nat.zero_mul,Nat.zero_add]
    exact split
  · rename_i level
    refine ⟨_,_,rfl,by omega,by omega,.inr (Nat.le_add_left _ _),?_⟩
    obtain ⟨below,same⟩ := Nat.exists_eq_succ_of_ne_zero level
    rw [same,Nat.succ_mul] at split
    rw [same,Nat.succ_sub_one,add_sub_cancel_left,Int.toNat_natCast]
    omega

theorem digitCount_bounds {n : Nat} (filled : 0 < n) :
    10 ^ (digitCount n - 1) ≤ n ∧ n < 10 ^ digitCount n ∧ 0 < digitCount n := by
  have positive : 0 < digitCount n := Nat.length_toDigits_pos
  have upper := (Nat.length_toDigits_le_iff (b := 10) (n := n) (by decide) positive).mp le_rfl
  refine ⟨?_,upper,positive⟩
  by_contra below
  rcases Nat.lt_or_ge 1 (digitCount n) with long | short
  · have shorter := (Nat.length_toDigits_le_iff (b := 10) (n := n) (k := digitCount n - 1) (by decide)
      (by omega)).mpr (by omega)
    change digitCount n ≤ digitCount n - 1 at shorter
    omega
  · rw [show digitCount n - 1 = 0 by omega,Nat.pow_zero] at below
    omega

theorem digitCount_tenfold {n : Nat} (filled : 0 < n) : digitCount (n * 10) = digitCount n + 1 := by
  unfold digitCount
  rw [Nat.toDigits_of_base_le (by decide) (by omega),Nat.mul_div_cancel n (by decide),List.length_append,
    List.length_singleton]

-- A zero may move from a significand to its exponent.
theorem ofScientific_tenfold (f : Format) (n : Nat) (e : Int) :
    f.ofScientific (n * 10) e = f.ofScientific n (e + 1) := by
  by_cases zero : n = 0
  · rw [zero]
    rfl
  have filled := Nat.pos_of_ne_zero zero
  unfold Format.ofScientific
  rw [if_neg (by omega),if_neg zero,digitCount_tenfold filled,
    show ((digitCount n + 1 : ℕ) : ℤ) + e = digitCount n + (e + 1) by push_cast; ring]
  dsimp only
  split
  · rfl
  split
  · rfl
  by_cases up : 0 ≤ e
  · rw [if_pos up,if_pos (by omega)]
    obtain ⟨k,rfl⟩ := Int.eq_ofNat_of_zero_le up
    rw [show (k : ℤ) + 1 = ((k + 1 : ℕ) : ℤ) by push_cast; ring,Int.toNat_natCast,Int.toNat_natCast,
      tenPow_succ,Nat.mul_assoc,Nat.mul_comm 10]
  · obtain ⟨k,same⟩ := Int.eq_ofNat_of_zero_le (show 0 ≤ -(e + 1) by omega)
    rw [if_neg up,show -e = ((k + 1 : ℕ) : ℤ) by push_cast; omega,Int.toNat_natCast,tenPow_succ]
    split
    · -- The exponent reaches zero, and what divided the significand is gone.
      have last : k = 0 := by omega
      rw [last,show (e + 1).toNat = 0 by omega]
      exact nearest_congr f (by decide) (by decide) ((ratio_eq_iff (by decide) (by decide)).mpr (by
        rw [tenPow_zero]
        omega))
    · rw [same,Int.toNat_natCast]
      have positive := tenPow_pos k
      exact nearest_congr f (by omega) positive
        ((ratio_eq_iff (by omega) positive).mpr (by ring))

theorem ofScientific_shift (f : Format) (n k : Nat) (e : Int) :
    f.ofScientific (n * 10 ^ k) (e - k) = f.ofScientific n e := by
  induction k generalizing e with
  | zero => simp
  | succ k ih =>
    rw [pow_succ,← Nat.mul_assoc,ofScientific_tenfold,← ih e]
    congr 1
    push_cast
    ring

theorem ofScientific_normal (f : Format) (n : Scientific) :
    f.ofScientific n.normal.significand n.normal.exponent = f.ofScientific n.significand n.exponent := by
  fun_induction Scientific.normal n with
  | case1 n ends ih =>
    rw [ih,← ofScientific_tenfold,Nat.div_mul_cancel (Nat.dvd_of_mod_eq_zero ends.2)]
  | case2 => rfl

theorem ofScientific_within (f : Format) {m : Nat} {e : Int} (filled : m ≠ 0)
    (bottom : -400 ≤ (digitCount m : Int) + e) (top : (digitCount m : Int) + e ≤ 400) :
    ∃ a b : ℕ, 0 < b ∧ (a : ℚ) / b = m * 10 ^ e ∧ f.ofScientific m e = f.nearest a b := by
  unfold Format.ofScientific
  dsimp only
  rw [if_neg filled,if_neg (by omega),if_neg (by omega)]
  split
  · rename_i up
    obtain ⟨k,rfl⟩ := Int.eq_ofNat_of_zero_le up
    refine ⟨_,_,one_pos,?_,rfl⟩
    rw [Int.toNat_natCast,tenPow_eq]
    push_cast
    rw [div_one,zpow_natCast]
  · obtain ⟨k,same⟩ := Int.eq_ofNat_of_zero_le (show 0 ≤ -e by omega)
    refine ⟨_,_,tenPow_pos _,?_,rfl⟩
    rw [same,Int.toNat_natCast,tenPow_eq,show e = -(k : ℤ) by omega]
    push_cast
    rw [zpow_neg,zpow_natCast,div_eq_mul_inv]

-- The magnitude for a decimal is the one nearest to its value, unless that is out of all proportion.
theorem ofScientific_ratio (f : Format) {n d m : Nat} {e : Int} (positive : 0 < d) (filled : 0 < m)
    (value : (n : ℚ) / d = m * 10 ^ e) (low : (10 : ℚ) ^ (-400 : ℤ) ≤ (n : ℚ) / d)
    (high : (n : ℚ) / d < 10 ^ (400 : ℤ)) : f.ofScientific m e = f.nearest n d := by
  obtain ⟨least,greatest,long⟩ := digitCount_bounds filled
  have top : (digitCount m : ℤ) + e - 1 < 400 := by
    have least : (10 : ℚ) ^ (digitCount m - 1) ≤ m := by exact_mod_cast least
    have bound : (10 : ℚ) ^ ((digitCount m : ℤ) + e - 1) < 10 ^ (400 : ℤ) := by
      refine lt_of_le_of_lt ?_ high
      rw [value,show (digitCount m : ℤ) + e - 1 = ((digitCount m - 1 : ℕ) : ℤ) + e by omega]
      rw [zpow_add₀ (by norm_num),zpow_natCast]
      gcongr
    exact (zpow_lt_zpow_iff_right₀ (by norm_num)).mp bound
  have bottom : -400 < (digitCount m : ℤ) + e := by
    have greatest : (m : ℚ) < 10 ^ digitCount m := by exact_mod_cast greatest
    have bound : (10 : ℚ) ^ (-400 : ℤ) < 10 ^ ((digitCount m : ℤ) + e) := by
      refine lt_of_le_of_lt low ?_
      rw [value,zpow_add₀ (by norm_num),zpow_natCast]
      gcongr
    exact (zpow_lt_zpow_iff_right₀ (by norm_num)).mp bound
  obtain ⟨_,_,positiveB,ratio,same⟩ := ofScientific_within f (e := e) filled.ne' (by omega) (by omega)
  rw [same]
  exact nearest_congr f positiveB positive (ratio.trans value.symm)

theorem hit_reads {f : Format} {tie : Tie} {bits n d : Nat} {e : Int} {found : Scientific}
    (hit : f.hit tie bits n d e = some found) : f.ofScientific found.significand found.exponent = bits := by
  unfold Format.hit at hit
  simp only [Bool.and_eq_true] at hit
  split at hit
  · rename_i both
    cases hit
    cases tie
    all_goals
      dsimp only
      split
      · exact eq_of_beq both.2
      · exact eq_of_beq both.1
  split at hit
  · rename_i below
    cases hit
    exact eq_of_beq below
  split at hit
  · rename_i above
    cases hit
    exact eq_of_beq above
  · cases hit

theorem scaledTen_ratio (n d : Nat) (e : Int) (positive : 0 < d) :
    0 < (scaledTen n d e).2 ∧ ((scaledTen n d e).1 : ℚ) / (scaledTen n d e).2 = (n : ℚ) / d / 10 ^ e := by
  unfold scaledTen
  split
  · rename_i up
    refine ⟨Nat.mul_pos positive (tenPow_pos _),?_⟩
    obtain ⟨k,rfl⟩ := Int.eq_ofNat_of_zero_le up
    rw [Int.toNat_natCast,tenPow_eq]
    push_cast
    rw [zpow_natCast,div_div]
  · rename_i down
    refine ⟨positive,?_⟩
    obtain ⟨k,same⟩ := Int.eq_ofNat_of_zero_le (show 0 ≤ -e by omega)
    rw [same,Int.toNat_natCast,tenPow_eq,show e = -(k : ℤ) by omega]
    push_cast
    rw [zpow_neg,zpow_natCast,div_inv_eq_mul]
    ring

theorem exists_digits {significand : Nat} (filled : 0 < significand) (e : Int) :
    ∃ all : ℕ, 0 < all ∧ (significand * 2 ^ e : ℚ) / 10 ^ (-((-e).toNat : ℤ)) = all := by
  rcases Int.le_total 0 e with up | down
  · obtain ⟨k,rfl⟩ := Int.eq_ofNat_of_zero_le up
    refine ⟨significand * 2 ^ k,by positivity,?_⟩
    rw [show (-(k : ℤ)).toNat = 0 by omega]
    push_cast
    simp
  · obtain ⟨k,negated⟩ := Int.eq_ofNat_of_zero_le (show 0 ≤ -e by omega)
    refine ⟨significand * 5 ^ k,by positivity,?_⟩
    rw [negated,Int.toNat_natCast,show e = -(k : ℤ) by omega]
    push_cast
    rw [zpow_neg,zpow_neg,zpow_natCast,zpow_natCast,div_inv_eq_mul,mul_assoc,← inv_pow,← mul_pow]
    norm_num

theorem shortest_reads (f : Format) (tie : Tie) {significand n d : Nat} {e : Int} (positive : 0 < d)
    (filled : 0 < significand) (value : (n : ℚ) / d = significand * 2 ^ e)
    (low : (10 : ℚ) ^ (-400 : ℤ) ≤ (n : ℚ) / d) (high : (n : ℚ) / d < 10 ^ (400 : ℤ)) :
    f.ofScientific (f.shortest tie significand e).significand (f.shortest tie significand e).exponent =
      f.nearest n d := by
  obtain ⟨positiveB,ratio⟩ := scaled_ratio significand 1 (-e) one_pos
  have same : ((scaled significand 1 (-e)).1 : ℚ) / (scaled significand 1 (-e)).2 = (n : ℚ) / d := by
    rw [ratio,value,Nat.cast_one,div_one,zpow_neg,div_inv_eq_mul]
  have bits := nearest_congr f positiveB positive same
  unfold Format.shortest
  rw [if_neg filled.ne']
  dsimp only
  rw [ofScientific_normal,bits]
  cases search : (List.range (floorLog10 (scaled significand 1 (-e)).1 (scaled significand 1 (-e)).2 + 1 +
      ((-e).toNat : ℤ)).toNat).findSome? fun i : Nat => f.hit tie (f.nearest n d)
        (scaled significand 1 (-e)).1 (scaled significand 1 (-e)).2
        (floorLog10 (scaled significand 1 (-e)).1 (scaled significand 1 (-e)).2 - i) with
  | some found =>
    obtain ⟨_,_,hit⟩ := List.exists_of_findSome?_eq_some search
    exact hit_reads hit
  | none =>
    -- All digits of the number: as many places as its exponent has.
    rw [Option.getD_none]
    dsimp only
    obtain ⟨positiveC,fullRatio⟩ := scaledTen_ratio (scaled significand 1 (-e)).1
      (scaled significand 1 (-e)).2 (-((-e).toNat : ℤ)) positiveB
    rw [same] at fullRatio
    obtain ⟨all,allPositive,exact⟩ := exists_digits filled e
    rw [← value] at exact
    have quotient : (scaledTen (scaled significand 1 (-e)).1 (scaled significand 1 (-e)).2
        (-((-e).toNat : ℤ))).1 = all * (scaledTen (scaled significand 1 (-e)).1
          (scaled significand 1 (-e)).2 (-((-e).toNat : ℤ))).2 := by
      have product := (ratio_eq_iff (m := all) positiveC one_pos).mp (by
        rw [fullRatio,exact,Nat.cast_one,div_one])
      rw [Nat.mul_one] at product
      exact product
    rw [quotient,Nat.mul_div_cancel _ positiveC]
    refine ofScientific_ratio f positive allPositive ?_ low high
    rw [← exact,div_mul_cancel₀ _ (by positivity)]

-- A format all of whose numbers are in proportion.
structure Format.Moderate (f : Format) : Prop where
  least : -1200 ≤ f.unitExponent
  greatest : (f.fractionBits + 1 : ℤ) + (f.unitExponent + twoPow f.exponentBits) ≤ 1200

theorem moderate_binary32 : binary32.Moderate := ⟨by decide,by decide⟩

theorem moderate_binary64 : binary64.Moderate := ⟨by decide,by decide⟩

-- Three halvings take less than a division by ten.
theorem twoPow_moderate {e : Int} (low : -1200 ≤ e) (high : e ≤ 1200) :
    (10 : ℚ) ^ (-400 : ℤ) ≤ 2 ^ e ∧ (2 : ℚ) ^ e ≤ 10 ^ (400 : ℤ) := by
  have eight : (8 : ℚ) ^ 400 ≤ 10 ^ 400 := by gcongr; norm_num
  have cubes : (2 : ℚ) ^ (1200 : ℤ) = 8 ^ 400 := by
    rw [show (8 : ℚ) = 2 ^ 3 by norm_num,← pow_mul]
    rfl
  constructor
  · calc (10 : ℚ) ^ (-400 : ℤ) = (10 ^ 400)⁻¹ := by rw [zpow_neg]; rfl
      _ ≤ (8 ^ 400)⁻¹ := by gcongr
      _ = 2 ^ (-1200 : ℤ) := by rw [zpow_neg,cubes]
      _ ≤ 2 ^ e := zpow_le_zpow_right₀ one_le_two low
  · calc (2 : ℚ) ^ e ≤ 2 ^ (1200 : ℤ) := zpow_le_zpow_right₀ one_le_two high
      _ = 8 ^ 400 := cubes
      _ ≤ 10 ^ 400 := eight

theorem shortest_decode {f : Format} (moderate : f.Moderate) (tie : Tie) {bits significand : Nat} {e : Int}
    (finite : bits < f.infinityBits) (decoded : f.decode bits = .finite false significand e) :
    f.ofScientific (f.shortest tie significand e).significand (f.shortest tie significand e).exponent =
      bits := by
  obtain ⟨_,_,same,room,low,full,counts⟩ := decode_finite f finite
  rw [decoded] at same
  cases same
  by_cases zero : significand = 0
  · subst zero
    have least : e = f.unitExponent := full.resolve_right (by have := Nat.two_pow_pos f.fractionBits; omega)
    rw [← counts,least,Int.sub_self]
    simp [Format.shortest,Format.ofScientific]
  have filled := Nat.pos_of_ne_zero zero
  have significandLeast : (1 : ℚ) ≤ significand := by exact_mod_cast filled
  have exponent : e < f.unitExponent + twoPow f.exponentBits := by
    have levels : (e - f.unitExponent).toNat < twoPow f.exponentBits - 1 := by
      refine Nat.lt_of_mul_lt_mul_right (a := twoPow f.fractionBits) ?_
      exact Nat.lt_of_le_of_lt (Nat.le_add_right _ significand) (counts ▸ finite)
    omega
  obtain ⟨positive,ratio⟩ := scaled_ratio significand 1 (-e) one_pos
  have value : ((scaled significand 1 (-e)).1 : ℚ) / (scaled significand 1 (-e)).2 = significand * 2 ^ e := by
    rw [ratio,Nat.cast_one,div_one,zpow_neg,div_inv_eq_mul]
  have bottom : (10 : ℚ) ^ (-400 : ℤ) ≤ significand * 2 ^ e := by
    have least := moderate.least
    have greatest := moderate.greatest
    calc (10 : ℚ) ^ (-400 : ℤ) ≤ 2 ^ e := (twoPow_moderate (by omega) (by omega)).1
      _ ≤ significand * 2 ^ e := le_mul_of_one_le_left (by positivity) significandLeast
  have top : significand * 2 ^ e < (10 : ℚ) ^ (400 : ℤ) := by
    have room : (significand : ℚ) < 2 ^ (f.fractionBits + 1) := by exact_mod_cast room
    calc significand * (2 : ℚ) ^ e < 2 ^ (f.fractionBits + 1) * 2 ^ e := by gcongr
      _ = 2 ^ (f.fractionBits + 1 + e) := by
        rw [← zpow_natCast,← zpow_add₀ two_ne_zero]
        push_cast
        rfl
      _ ≤ 10 ^ (400 : ℤ) := by
        have least := moderate.least
        have greatest := moderate.greatest
        exact (twoPow_moderate (by omega) (by omega)).2
  rw [shortest_reads f tie positive filled value (by rw [value]; exact bottom) (by rw [value]; exact top),
    nearest_exact f positive filled value room low full,counts,min_eq_left finite.le]

end Binary
end TypedFormula
