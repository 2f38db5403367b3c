import TypedFormula.Power
import TypedFormula.RoundDiv

namespace TypedFormula.Binary

structure Format where
  fractionBits : Nat
  exponentBits : Nat

def binary32 : Format := ⟨23, 8⟩

def binary64 : Format := ⟨52, 11⟩

-- What a bit pattern stands for; a finite one for significand * 2 ^ exponent.
inductive Datum where
  | nan
  | infinite (negative : Bool)
  | finite (negative : Bool) (significand : Nat) (exponent : Int)
deriving DecidableEq, Repr

namespace Format

def unitExponent (f : Format) : Int := 2 - (twoPow (f.exponentBits - 1) + f.fractionBits : Nat)

-- The bits of positive infinity: the first pattern above all finite magnitudes.
def infinityBits (f : Format) : Nat := (twoPow f.exponentBits - 1) * twoPow f.fractionBits

def signBit (f : Format) : Nat := twoPow (f.exponentBits + f.fractionBits)

def magnitude (f : Format) (bits : Nat) : Nat := bits % f.signBit

def decode (f : Format) (bits : Nat) : Datum :=
  let negative := bits / f.signBit % 2 == 1
  let magnitude := f.magnitude bits
  let fraction := magnitude % twoPow f.fractionBits
  let level := magnitude / twoPow f.fractionBits
  if f.infinityBits < magnitude then .nan
  else if magnitude = f.infinityBits then .infinite negative
  else if level = 0 then .finite negative fraction f.unitExponent
  else .finite negative (fraction + twoPow f.fractionBits) (f.unitExponent + (level - 1 : Nat))

def withSign (f : Format) (negative : Bool) (magnitude : Nat) : Nat :=
  if negative then f.signBit + magnitude else magnitude

end Format

-- The ratio n / d divided by 2 ^ e.
def scaled (n d : Nat) (e : Int) : Nat × Nat :=
  if 0 ≤ e then (n, d * twoPow e.toNat) else (n * twoPow (-e).toNat, d)

-- The greatest e with 2 ^ e at most n / d, for a positive ratio.
def floorLog2 (n d : Nat) : Int :=
  let e := (Nat.log2 n : Int) - Nat.log2 d
  let (a, b) := scaled n d e
  if b ≤ a then e else e - 1

-- The magnitude nearest to n / d, ties to even. The unit is as small as the precision allows but never
-- below the format's own, and what lies past the last finite number is infinity.
def Format.nearest (f : Format) (n d : Nat) : Nat :=
  if n = 0 then 0
  else
    let unit := max f.unitExponent (floorLog2 n d - f.fractionBits)
    let (a, b) := scaled n d unit
    min ((unit - f.unitExponent).toNat * twoPow f.fractionBits + roundDiv a b) f.infinityBits

def digitCount (n : Nat) : Nat := (Nat.toDigits 10 n).length

-- The magnitude nearest to n * 10 ^ e. Exponents far outside the range of every format are settled by
-- the number of digits alone.
def Format.ofScientific (f : Format) (n : Nat) (e : Int) : Nat :=
  if n = 0 then 0
  else
    let top := digitCount n + e
    if 400 < top then f.infinityBits
    else if top < -400 then 0
    else if 0 ≤ e then f.nearest (n * tenPow e.toNat) 1
    else f.nearest n (tenPow (-e).toNat)

example : binary64.unitExponent = -1074 ∧ binary32.unitExponent = -149 := by decide
example : binary64.nearest 1 10 = 0x3FB999999999999A := by decide +kernel
example : binary32.nearest 16777217 1 = binary32.nearest 16777216 1 := by decide +kernel

end TypedFormula.Binary
