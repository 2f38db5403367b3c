import Mathlib.Data.Int.Bitwise
import Mathlib.Data.Int.ModEq
import TypedFormula.Operator.Apply

namespace TypedFormula

theorem toInt_inRange (n : Int32) : minInt ≤ n.toInt ∧ n.toInt ≤ maxInt := by
  have least := n.le_toInt
  have largest := n.toInt_lt
  unfold minInt maxInt
  omega

def GivesInt (result : Except Cause Value) (x : Int) : Prop :=
  ∃ n : Int32, result = .ok (.int n) ∧ n.toInt = x

-- An operation that comes to the one int that differs from an integer by a multiple of 2^32.
def WrapsInt (result : Except Cause Value) (x : Int) : Prop :=
  ∃ n : Int32, result = .ok (.int n) ∧
    ∀ m : Int, m = n.toInt ↔ (minInt ≤ m ∧ m ≤ maxInt) ∧ m ≡ x [ZMOD 2 ^ 32]

def CombinesDigits (result : Except Cause Value) (f : Bool → Bool → Bool) (x y : Int) : Prop :=
  ∃ n : Int32, result = .ok (.int n) ∧ ∀ i, n.toInt.testBit i = f (x.testBit i) (y.testBit i)

-- The balanced remainder is the one integer of the range in its class.
theorem eq_bmod_iff (x m : Int) :
    m = x.bmod (2 ^ 32) ↔ (minInt ≤ m ∧ m ≤ maxInt) ∧ m ≡ x [ZMOD 2 ^ 32] := by
  unfold minInt maxInt
  constructor
  · rintro rfl
    have least := Int.le_bmod (x := x) (m := 2 ^ 32) (by decide)
    have largest := Int.bmod_lt (x := x) (m := 2 ^ 32) (by decide)
    exact ⟨by omega,Int.bmod_emod⟩
  · rintro ⟨range,congruent⟩
    calc m = m.bmod (2 ^ 32) := (Int.bmod_eq_of_le (by omega) (by omega)).symm
      _ = (m % (2 ^ 32 : Nat)).bmod (2 ^ 32) := (Int.emod_bmod _ _).symm
      _ = (x % (2 ^ 32 : Nat)).bmod (2 ^ 32) := congrArg (·.bmod (2 ^ 32)) congruent
      _ = x.bmod (2 ^ 32) := Int.emod_bmod _ _

theorem wrapsInt_of_bmod {n : Int32} {x y : Int} (is : n.toInt = x.bmod (2 ^ 32)) (same : x ≡ y [ZMOD 2 ^ 32]) :
    WrapsInt (.ok (.int n)) y := by
  refine ⟨n,rfl,fun m => ?_⟩
  rw [is,eq_bmod_iff]
  exact and_congr_right fun _ => ⟨fun one => one.trans same,fun other => other.trans same.symm⟩

-- The digits of a register are those of the integer it stands for, and its sign is every digit further up.
theorem testBit_register {w : Nat} (x : BitVec w) (i : Nat) :
    x.toInt.testBit i = if i < w then x.getLsbD i else x.msb := by
  have small := x.isLt
  rw [BitVec.toInt_eq_msb_cond]
  cases x.msb with
  | false =>
    change x.toNat.testBit i = _
    rw [BitVec.testBit_toNat]
    split
    · rfl
    · exact BitVec.getLsbD_of_ge x i (by omega)
  | true =>
    have negative : (x.toNat : Int) - (2 ^ w : Nat) = Int.negSucc (2 ^ w - (x.toNat + 1)) := by omega
    rw [if_pos rfl,negative]
    change (!(2 ^ w - (x.toNat + 1)).testBit i) = _
    rw [Nat.testBit_two_pow_sub_succ small,BitVec.testBit_toNat]
    split
    · simp [*]
    · simp [*]

theorem testBit_toInt (n : Int32) (i : Nat) :
    n.toInt.testBit i = if i < 32 then n.toBitVec.getLsbD i else n.toBitVec.msb :=
  testBit_register n.toBitVec i

-- The amount of a shift is the remainder that is not negative, also of a negative number.
theorem shiftAmount (b : Int32) : (b.toBitVec.smod 32).toNat = (b.toInt % 32).toNat := by
  have amount : (b.toBitVec.smod 32).toInt = b.toInt % 32 := by
    rw [BitVec.toInt_smod]
    exact Int.fmod_eq_emod_of_nonneg _ (by decide)
  have positive : (0#32).sle (b.toBitVec.smod 32) = true := by
    rw [BitVec.sle_iff_toInt_le,amount]
    exact Int.emod_nonneg _ (by decide)
  rw [← amount]
  exact (BitVec.toNat_toInt_of_sle positive).symm

theorem toInt_shiftLeft (a b : Int32) :
    (a <<< b).toInt = (a.toBitVec.toNat * 2 ^ (b.toInt % 32).toNat : Int).bmod (2 ^ 32) := by
  rw [← Int32.toInt_toBitVec,Int32.toBitVec_shiftLeft,BitVec.shiftLeft_eq',BitVec.toInt_shiftLeft,shiftAmount,
    Nat.shiftLeft_eq]
  push_cast
  rfl

theorem toInt_shiftRight (a b : Int32) : (a >>> b).toInt = a.toInt.fdiv (2 ^ (b.toInt % 32).toNat) := by
  rw [← Int32.toInt_toBitVec,Int32.toBitVec_shiftRight,BitVec.sshiftRight_eq',BitVec.toInt_sshiftRight,shiftAmount,
    Int.shiftRight_eq_div_pow,Int.fdiv_eq_ediv_of_nonneg _ (Int.pow_nonneg (by decide)),Int32.toInt_toBitVec]
  rfl

theorem toInt_not (a : Int32) : (~~~a).toInt = -a.toInt - 1 := by
  have range := toInt_inRange a
  unfold minInt maxInt at range
  rw [Int32.toInt_not,Int.bmod_eq_of_le (by omega) (by omega)]

-- Only the least int by minus one leaves the range.
theorem toInt_div (a b : Int32) (inside : ¬(a.toInt = minInt ∧ b.toInt = -1)) :
    (a / b).toInt = a.toInt.tdiv b.toInt := by
  by_cases least : a = leastInt
  · refine Int32.toInt_div_of_ne_right _ _ fun is => inside ⟨?_,?_⟩
    · rw [least]
      rfl
    · rw [is]
      rfl
  · exact Int32.toInt_div_of_ne_left _ _ least

theorem combinesDigits_of_register {a b n : Int32} {f : Bool → Bool → Bool}
    (digits : ∀ i < 32, n.toBitVec.getLsbD i = f (a.toBitVec.getLsbD i) (b.toBitVec.getLsbD i)) :
    CombinesDigits (.ok (.int n)) f a.toInt b.toInt := by
  refine ⟨n,rfl,fun i => ?_⟩
  rw [testBit_toInt,testBit_toInt,testBit_toInt]
  split
  · exact digits i ‹_›
  · rw [BitVec.msb_eq_getLsbD_last,BitVec.msb_eq_getLsbD_last,BitVec.msb_eq_getLsbD_last]
    exact digits 31 (by decide)

-- What every operator that takes ints means on two of them. Quotients are cut off towards zero, right shifts are
-- rounded down, and the amount of a shift is the remainder that is not negative.
structure ExactOnInts (a b : Int32) : Prop where
  negates : WrapsInt (UnaryOp.negate.apply (.int a)) (-a.toInt)
  complements : GivesInt (UnaryOp.not.apply (.int a)) (-a.toInt - 1)
  adds : WrapsInt (BinaryOp.add.apply (.int a) (.int b)) (a.toInt + b.toInt)
  subtracts : WrapsInt (BinaryOp.subtract.apply (.int a) (.int b)) (a.toInt - b.toInt)
  multiplies : WrapsInt (BinaryOp.multiply.apply (.int a) (.int b)) (a.toInt * b.toInt)
  divides :
    if b.toInt = 0 ∨ a.toInt = -2 ^ 31 ∧ b.toInt = -1 then
      ∃ cause, BinaryOp.divide.apply (.int a) (.int b) = .error cause
    else GivesInt (BinaryOp.divide.apply (.int a) (.int b)) (a.toInt.tdiv b.toInt)
  shiftsLeft : WrapsInt (BinaryOp.shiftLeft.apply (.int a) (.int b)) (a.toInt * 2 ^ (b.toInt % 32).toNat)
  shiftsRight : GivesInt (BinaryOp.shiftRight.apply (.int a) (.int b)) (a.toInt.fdiv (2 ^ (b.toInt % 32).toNat))
  conjoins : ∀ op ∈ [BinaryOp.bitAnd,.logicalAnd],
    CombinesDigits (op.apply (.int a) (.int b)) (· && ·) a.toInt b.toInt
  disjoins : ∀ op ∈ [BinaryOp.bitOr,.logicalOr],
    CombinesDigits (op.apply (.int a) (.int b)) (· || ·) a.toInt b.toInt
  parts : CombinesDigits (BinaryOp.bitXor.apply (.int a) (.int b)) (· ^^ ·) a.toInt b.toInt
  less : BinaryOp.less.apply (.int a) (.int b) = .ok (.bool (decide (a.toInt < b.toInt)))
  lessEqual : BinaryOp.lessEqual.apply (.int a) (.int b) = .ok (.bool (decide (a.toInt ≤ b.toInt)))
  greater : BinaryOp.greater.apply (.int a) (.int b) = .ok (.bool (decide (a.toInt > b.toInt)))
  greaterEqual : BinaryOp.greaterEqual.apply (.int a) (.int b) = .ok (.bool (decide (a.toInt ≥ b.toInt)))
  equal : BinaryOp.equal.apply (.int a) (.int b) = .ok (.bool (decide (a.toInt = b.toInt)))
  notEqual : BinaryOp.notEqual.apply (.int a) (.int b) = .ok (.bool (decide (a.toInt ≠ b.toInt)))

theorem shiftLeft_wraps (a b : Int32) :
    WrapsInt (BinaryOp.shiftLeft.apply (.int a) (.int b)) (a.toInt * 2 ^ (b.toInt % 32).toNat) := by
  refine wrapsInt_of_bmod (toInt_shiftLeft a b) (Int.ModEq.mul_right _ ?_)
  rw [← Int32.toInt_toBitVec,BitVec.toInt_eq_toNat_bmod]
  exact Int.bmod_emod.symm

theorem divide_exact (a b : Int32) :
    if b.toInt = 0 ∨ a.toInt = -2 ^ 31 ∧ b.toInt = -1 then
      ∃ cause, BinaryOp.divide.apply (.int a) (.int b) = .error cause
    else GivesInt (BinaryOp.divide.apply (.int a) (.int b)) (a.toInt.tdiv b.toInt) := by
  have zero : b = 0 ↔ b.toInt = 0 := by rw [← Int32.toInt_zero,Int32.toInt_inj]
  have least : a = leastInt ↔ a.toInt = -2 ^ 31 := by
    rw [← Int32.toInt_inj]
    exact Iff.rfl
  have minusOne : b = -1 ↔ b.toInt = -1 := by
    rw [← Int32.toInt_inj]
    exact Iff.rfl
  have applied : BinaryOp.divide.apply (.int a) (.int b) = if b = 0 then .error .divisionByZero
      else if a = leastInt ∧ b = -1 then .error .integerOverflow else .ok (.int (a / b)) := rfl
  rw [applied]
  by_cases byZero : b.toInt = 0
  · rw [if_pos (.inl byZero),if_pos (zero.mpr byZero)]
    exact ⟨_,rfl⟩
  have noZero : b ≠ 0 := fun is => byZero (zero.mp is)
  by_cases overflows : a.toInt = -2 ^ 31 ∧ b.toInt = -1
  · rw [if_pos (.inr overflows),if_neg noZero,if_pos ⟨least.mpr overflows.1,minusOne.mpr overflows.2⟩]
    exact ⟨_,rfl⟩
  · rw [if_neg (not_or.mpr ⟨byZero,overflows⟩),if_neg noZero,
      if_neg fun both => overflows ⟨least.mp both.1,minusOne.mp both.2⟩]
    exact ⟨_,rfl,toInt_div a b overflows⟩

theorem holds_compare (op : BinaryOp) (x y : Int) : op.holds (some (compare x y)) = match op with
    | .less => decide (x < y)
    | .lessEqual => decide (x ≤ y)
    | .greater => decide (x > y)
    | .greaterEqual => decide (x ≥ y)
    | _ => false := by
  rcases Int.lt_trichotomy x y with before | same | behind
  · rw [compare_lt_iff_lt.mpr before]
    cases op <;> simp [BinaryOp.holds] <;> omega
  · rw [compare_eq_iff_eq.mpr same]
    cases op <;> simp [BinaryOp.holds] <;> omega
  · rw [compare_gt_iff_gt.mpr behind]
    cases op <;> simp [BinaryOp.holds] <;> omega

theorem same_ints (a b : Int32) : Value.same (.int a) (.int b) = decide (a.toInt = b.toInt) := by
  change (a == b) = _
  rw [Bool.beq_eq_decide_eq,decide_eq_decide,Int32.toInt_inj]

theorem ints_exact (a b : Int32) : ExactOnInts a b where
  negates := wrapsInt_of_bmod (Int32.toInt_neg a) rfl
  complements := ⟨_,rfl,toInt_not a⟩
  adds := wrapsInt_of_bmod (Int32.toInt_add a b) rfl
  subtracts := wrapsInt_of_bmod (Int32.toInt_sub a b) rfl
  multiplies := wrapsInt_of_bmod (Int32.toInt_mul a b) rfl
  divides := divide_exact a b
  shiftsLeft := shiftLeft_wraps a b
  shiftsRight := ⟨_,rfl,toInt_shiftRight a b⟩
  conjoins := by
    have digits : CombinesDigits (.ok (.int (a &&& b))) (· && ·) a.toInt b.toInt :=
      combinesDigits_of_register fun i _ => by rw [Int32.toBitVec_and,BitVec.getLsbD_and]
    simpa using ⟨digits,digits⟩
  disjoins := by
    have digits : CombinesDigits (.ok (.int (a ||| b))) (· || ·) a.toInt b.toInt :=
      combinesDigits_of_register fun i _ => by rw [Int32.toBitVec_or,BitVec.getLsbD_or]
    simpa using ⟨digits,digits⟩
  parts := combinesDigits_of_register fun i _ => by rw [Int32.toBitVec_xor,BitVec.getLsbD_xor]
  less := congrArg (Except.ok ∘ Value.bool) (holds_compare .less a.toInt b.toInt)
  lessEqual := congrArg (Except.ok ∘ Value.bool) (holds_compare .lessEqual a.toInt b.toInt)
  greater := congrArg (Except.ok ∘ Value.bool) (holds_compare .greater a.toInt b.toInt)
  greaterEqual := congrArg (Except.ok ∘ Value.bool) (holds_compare .greaterEqual a.toInt b.toInt)
  equal := congrArg (Except.ok ∘ Value.bool) (same_ints a b)
  notEqual := congrArg (Except.ok ∘ Value.bool) <| by
    rw [same_ints,← decide_not]

end TypedFormula
