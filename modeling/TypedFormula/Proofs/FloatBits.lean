import Mathlib.Algebra.Group.Nat.Defs
import TypedFormula.Lexeme

namespace TypedFormula
namespace FloatBits
open Float.Model.UnpackedFloat
open Float.Model (Format)

theorem toBitVec_ofBitVec (b : BitVec 1) : (Sign.ofBitVec b).toBitVec = b := by
  unfold Sign.ofBitVec
  split
  · rename_i zero; rw [zero]; rfl
  · rename_i set
    rcases BitVec.eq_zero_or_eq_one b with zero | one
    · exact absurd zero set
    · rw [one]; rfl

variable (spec : Format) (b : BitVec spec.numBits)

theorem packComponents_fields :
    packComponents spec (Sign.ofBitVec (unpackSign b)) (unpackExponent b) (unpackMantissa b) = b := by
  have sign : unpackSign b = (b.extractLsb (spec.mantissaBitsWithoutImplicit + spec.exponentBits)
      (spec.mantissaBitsWithoutImplicit + spec.exponentBits)).cast (by omega) := rfl
  unfold packComponents
  rw [toBitVec_ofBitVec,sign]
  ext i inside
  simp only [unpackExponent,unpackMantissa,Nat.sub_zero,BitVec.getElem_append,BitVec.getElem_cast,
    BitVec.getElem_extract,Nat.zero_add,inside,BitVec.getLsbD_eq_getElem,dite_eq_ite,ite_eq_left_iff,Nat.not_lt]
  intro long
  split
  · rw [show spec.mantissaBitsWithoutImplicit + (i - spec.mantissaBitsWithoutImplicit) = i by omega]
    exact BitVec.getLsbD_eq_getElem inside
  · rw [show spec.mantissaBitsWithoutImplicit + spec.exponentBits +
      (i - spec.mantissaBitsWithoutImplicit - spec.exponentBits) = i by omega]
    exact BitVec.getLsbD_eq_getElem inside

theorem exponent_lt (finite : unpackExponent b ≠ -1#_) : (unpackExponent b).toNat + 1 < 2 ^ spec.exponentBits := by
  have below := (unpackExponent b).isLt
  have other : (unpackExponent b).toNat ≠ 2 ^ spec.exponentBits - 1 := by
    intro same
    refine finite (BitVec.eq_of_toNat_eq ?_)
    rw [same,BitVec.neg_one_eq_allOnes,BitVec.toNat_allOnes]
  omega

theorem pack_unpack_subnormal (wide : 2 ≤ spec.exponentBits) (finite : unpackExponent b ≠ -1#_)
    (level : unpackExponent b = 0#_) : pack spec (unpack spec b) = b := by
  have fields := packComponents_fields spec b
  have four : 2 ^ 2 ≤ 2 ^ spec.exponentBits := Nat.pow_le_pow_right (by decide) wide
  have bits : spec.mantissaBits = 1 + spec.mantissaBitsWithoutImplicit := rfl
  unfold unpack
  dsimp only
  rw [if_neg finite,if_pos level]
  by_cases zero : unpackMantissa b = 0#_
  · rw [dif_pos zero]
    rw [level,zero] at fields
    exact fields
  · rw [dif_neg zero]
    have short : (unpackMantissa b).toNat.log2 < spec.mantissaBitsWithoutImplicit :=
      (Nat.log2_lt (by simpa [← BitVec.toNat_inj] using zero)).mpr (unpackMantissa b).isLt
    rw [level] at fields
    unfold pack
    dsimp only
    rw [if_neg (by rw [level]; simp; omega),if_neg (by rw [bits]; omega),
      BitVec.ofNat_toNat,BitVec.setWidth_eq]
    exact fields

-- A number in full precision has one more bit, which its pattern leaves out.
theorem pack_unpack_normal (finite : unpackExponent b ≠ -1#_) (level : unpackExponent b ≠ 0#_) :
    pack spec (unpack spec b) = b := by
  have fields := packComponents_fields spec b
  have top := exponent_lt spec b finite
  have small : (unpackMantissa b).toNat < 2 ^ spec.mantissaBitsWithoutImplicit := (unpackMantissa b).isLt
  have bits : spec.mantissaBits = 1 + spec.mantissaBitsWithoutImplicit := rfl
  have value : (1#1 ++ unpackMantissa b).toNat =
      2 ^ spec.mantissaBitsWithoutImplicit + (unpackMantissa b).toNat := by
    rw [BitVec.toNat_append,← Nat.shiftLeft_add_eq_or_of_lt small]
    simp [Nat.shiftLeft_eq]
  have long : (1#1 ++ unpackMantissa b).toNat.log2 = spec.mantissaBitsWithoutImplicit := by
    rw [value,Nat.log2_eq_iff (by omega),Nat.pow_succ]
    omega
  unfold unpack
  dsimp only
  rw [if_neg finite,if_neg level]
  unfold pack
  dsimp only
  rw [if_neg (by omega),if_pos (by rw [long,bits]; omega)]
  have exponent : (↑(unpackExponent b).toNat - (↑spec.exponentBias + ↑spec.mantissaBitsWithoutImplicit) +
      ↑spec.exponentBias + ↑spec.mantissaBitsWithoutImplicit : Int).toNat = (unpackExponent b).toNat := by
    omega
  have mantissa : BitVec.ofNat spec.mantissaBitsWithoutImplicit (1#1 ++ unpackMantissa b).toNat =
      unpackMantissa b := by
    apply BitVec.eq_of_toNat_eq
    rw [value,BitVec.toNat_ofNat,Nat.add_mod_left,Nat.mod_eq_of_lt small]
  rw [exponent,mantissa,BitVec.ofNat_toNat,BitVec.setWidth_eq]
  exact fields

theorem pack_unpack (wide : 2 ≤ spec.exponentBits) (finite : unpackExponent b ≠ -1#_) :
    pack spec (unpack spec b) = b := by
  by_cases level : unpackExponent b = 0#_
  · exact pack_unpack_subnormal spec b wide finite level
  · exact pack_unpack_normal spec b finite level

theorem exponent_finite (below : b.toNat < (2 ^ spec.exponentBits - 1) * 2 ^ spec.mantissaBitsWithoutImplicit) :
    unpackExponent b ≠ -1#_ := by
  intro largest
  have value : (unpackExponent b).toNat ≤ b.toNat / 2 ^ spec.mantissaBitsWithoutImplicit := by
    unfold unpackExponent
    rw [BitVec.toNat_cast,BitVec.extractLsb_toNat,Nat.shiftRight_eq_div_pow]
    exact Nat.mod_le _ _
  rw [largest,BitVec.neg_one_eq_allOnes,BitVec.toNat_allOnes] at value
  exact absurd (Nat.div_lt_of_lt_mul (by rw [Nat.mul_comm]; exact below)) (Nat.not_lt.mpr value)

end FloatBits

namespace Lexeme

theorem toBits_floatOf {bits : Nat} (finite : bits < Binary.binary32.infinityBits) :
    (floatOf bits).toBits.toNat = bits := by
  have small : bits < 2 ^ 32 := Nat.lt_trans finite (by decide)
  have value : (UInt32.ofNat bits).toNat = bits := UInt32.toNat_ofNat_of_lt' small
  have same := FloatBits.pack_unpack Float.Model.Format.binary32 (UInt32.ofNat bits).toBitVec (by decide)
    (FloatBits.exponent_finite _ _ (by rw [UInt32.toNat_toBitVec,value]; exact finite))
  exact (congrArg BitVec.toNat same).trans value

theorem toBits_doubleOf {bits : Nat} (finite : bits < Binary.binary64.infinityBits) :
    (doubleOf bits).toBits.toNat = bits := by
  have small : bits < 2 ^ 64 := Nat.lt_trans finite (by decide)
  have value : (UInt64.ofNat bits).toNat = bits := UInt64.toNat_ofNat_of_lt' small
  have same := FloatBits.pack_unpack Float.Model.Format.binary64 (UInt64.ofNat bits).toBitVec (by decide)
    (FloatBits.exponent_finite _ _ (by rw [UInt64.toNat_toBitVec,value]; exact finite))
  exact (congrArg BitVec.toNat same).trans value

end Lexeme
end TypedFormula
