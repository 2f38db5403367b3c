import TypedFormula.Power

namespace TypedFormula

def Decimal.bound : Nat := 79228162514264337593543950336

def Decimal.maxScale : Nat := 28

structure Decimal where
  negative : Bool
  coefficient : Nat
  scale : Nat
  coefficient_lt : coefficient < Decimal.bound := by decide
  scale_le : scale ≤ Decimal.maxScale := by decide
deriving DecidableEq

namespace Decimal

theorem bound_pos : 0 < bound := by decide

def zeroOf (negative : Bool) (scale : Nat) (fits : scale ≤ maxScale) : Decimal :=
  ⟨negative, 0, scale, bound_pos, fits⟩

def zero : Decimal := zeroOf false 0 (Nat.zero_le maxScale)

def largest : Decimal := ⟨false, bound - 1, 0, by decide, by decide⟩

def smallest : Decimal := ⟨true, bound - 1, 0, by decide, by decide⟩

-- A number from its parts, if they fit. A zero keeps the sign too.
def ofSigned? (negative : Bool) (coefficient scale : Nat) : Option Decimal :=
  if fits : coefficient < bound ∧ scale ≤ maxScale then
    some ⟨negative, coefficient, scale, fits.1, fits.2⟩
  else none

-- A number from its parts, if they fit. A zero made this way has no sign.
def ofParts? (negative : Bool) (coefficient scale : Nat) : Option Decimal :=
  ofSigned? (negative && coefficient != 0) coefficient scale

def isZero (d : Decimal) : Bool := d.coefficient == 0

def plainZero (d : Decimal) : Decimal := { d with negative := d.negative && !d.isZero }

-- The coefficient with its sign. Both zeros have the coefficient 0.
def signed (d : Decimal) : Int := if d.negative then -(d.coefficient : Int) else d.coefficient

def neg (d : Decimal) : Decimal := { d with negative := !d.negative }

def abs (d : Decimal) : Decimal := { d with negative := false }

-- Order by value: scales and the sign of zero do not count.
def compare (a b : Decimal) : Ordering :=
  Ord.compare (a.signed * tenPow b.scale) (b.signed * tenPow a.scale)

def same (a b : Decimal) : Bool := a.compare b == .eq

-- Of two equal numbers the first is taken.
def min (a b : Decimal) : Decimal := if b.compare a == .lt then b else a

def max (a b : Decimal) : Decimal := if a.compare b == .lt then b else a

theorem compare_eq_iff (a b : Decimal) :
    a.compare b = .eq ↔ a.signed * tenPow b.scale = b.signed * tenPow a.scale := by
  simp [compare]

theorem same_iff (a b : Decimal) :
    a.same b = true ↔ a.signed * tenPow b.scale = b.signed * tenPow a.scale := by
  rw [same,beq_iff_eq,compare_eq_iff]

theorem map_plainZero_ofSigned? (negative : Bool) (coefficient scale : Nat) :
    (ofSigned? negative coefficient scale).map plainZero = ofParts? negative coefficient scale := by
  unfold ofParts? ofSigned?
  split <;> rfl

theorem signed_plainZero (d : Decimal) : d.plainZero.signed = d.signed := by
  by_cases zero : d.coefficient = 0 <;> simp [plainZero,signed,isZero,zero]

end Decimal
end TypedFormula
