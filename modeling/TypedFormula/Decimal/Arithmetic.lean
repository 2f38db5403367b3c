import TypedFormula.Decimal.Rounding

namespace TypedFormula.Decimal

def aligned (a b : Decimal) : Nat × Nat :=
  let scale := Nat.max a.scale b.scale
  (a.coefficient * tenPow (scale - a.scale), b.coefficient * tenPow (scale - b.scale))

-- The sum with the second sign as given. A difference of zero has no sign, and the larger scale.
def addSigned (a b : Decimal) (negative : Bool) : Option Decimal :=
  let scale := Nat.max a.scale b.scale
  let (x, y) := aligned a b
  if a.negative = negative then fit a.negative (x + y) scale
  else if x = y then
    if fits : scale ≤ maxScale then some (zeroOf false scale fits) else none
  else if y < x then fit a.negative (x - y) scale
  else fit negative (y - x) scale

-- A zero operand gives back the other one, its scale included.
def add (a b : Decimal) : Option Decimal :=
  if a.isZero then some b
  else if b.isZero then some a
  else addSigned a b b.negative

def sub (a b : Decimal) : Option Decimal :=
  if a.isZero then some (if b.isZero then b else b.neg)
  else if b.isZero then some a
  else addSigned a b (!b.negative)

def isShort (d : Decimal) : Bool := d.coefficient < 4294967296

-- A product with a zero is plain zero. One that is rounded to zero has the sign of its factors, unless
-- both are short: then the zero has no sign, and no places either if all digits lie nineteen or more
-- places below the last one that is kept.
def mul (a b : Decimal) : Option Decimal :=
  if a.isZero || b.isZero then some zero
  else
    let scale := a.scale + b.scale
    let product := fit (a.negative != b.negative) (a.coefficient * b.coefficient) scale
    if a.isShort && b.isShort then
      if 47 < scale then some zero else product.map plainZero
    else product

-- The largest number of places, at most `limit`, that can be added to `n` and leave it below the bound.
def placesFor (n : Nat) : Nat → Nat
  | 0 => 0
  | limit + 1 => if n * tenPow (limit + 1) < bound then limit + 1 else placesFor n limit

-- The places of a quotient are worked out in blocks of at most nine, as many as the digits worked out so
-- far leave room for. `room` counts the places that are left up to the largest scale. Without a remainder
-- a block only makes up for a negative scale.
def blockSize (n d room : Nat) : Nat :=
  if n % d = 0 then Nat.min 9 (room - maxScale)
  else placesFor (n / d) (Nat.min 9 room)

-- The places to which a quotient is carried, and whether the digits of the last block took it over the
-- bound, so that the last place was given up again.
structure Expansion where
  places : Nat
  overrun : Bool

-- The work on n / d ends when there is no remainder left, no room, or no place that stays below the bound.
def expansion (n d room : Nat) : Expansion :=
  let block := blockSize n d room
  if 0 < block ∧ block ≤ room then
    if n * tenPow block / d < bound then
      let rest := expansion (n * tenPow block) d (room - block)
      { rest with places := block + rest.places }
    else ⟨block - 1, true⟩
  else ⟨0, false⟩
termination_by room
decreasing_by
  rename_i progress _
  exact Nat.sub_lt (Nat.lt_of_lt_of_le progress.1 progress.2) progress.1

-- The quotient rounded on the last place of an expansion, ties to the even neighbour. After an overrun of
-- a divisor of more than 64 bits ties go up.
def Expansion.rounded (e : Expansion) (n d : Nat) : Nat :=
  if e.overrun && 18446744073709551616 ≤ d then roundHalfUp (n * tenPow e.places) d
  else roundDiv (n * tenPow e.places) d

-- Zeros behind the point go in groups: eights for as long as the low 32 bits are clear too, then four,
-- two and one, once each. So some zeros may stay.
def zeroGroups : List Nat := [8, 8, 8, 4, 2, 1]

def dropGroup (number : Nat × Nat) (zeros : Nat) : Nat × Nat :=
  let (coefficient, scale) := number
  if zeros ≤ scale ∧ coefficient % tenPow zeros = 0 ∧ (zeros = 8 → coefficient % 4294967296 = 0) then
    (coefficient / tenPow zeros, scale - zeros)
  else number

def trimmed (d : Decimal) : Option Decimal :=
  let (coefficient, scale) := zeroGroups.foldl dropGroup (d.coefficient, d.scale)
  ofParts? d.negative coefficient scale

-- The quotient by a divisor other than zero. If the coefficients divide, the scales subtract; otherwise
-- the division is carried block by block, rounded on its last place, and its zeros are trimmed.
def div (a b : Decimal) : Option Decimal :=
  if a.isZero then some zero
  else
    let negative := a.negative != b.negative
    let n := a.coefficient
    let d := b.coefficient
    if n % d = 0 then ofParts? negative (n / d * tenPow (b.scale - a.scale)) (a.scale - b.scale)
    else
      let work := expansion n d (maxScale + b.scale - a.scale)
      if a.scale + work.places < b.scale then none
      else do
        let scale := a.scale + work.places - b.scale
        (← settle negative (work.rounded n d) scale).trimmed

-- Only a long factor leaves its sign on a product that is rounded to zero.
example : mul ⟨true, 4, 1, by decide, by decide⟩ ⟨false, 1, 28, by decide, by decide⟩ =
    some (zeroOf false 28 (Nat.le_refl 28)) := by decide +kernel
example : mul ⟨true, 4294967296, 10, by decide, by decide⟩ ⟨false, 1, 28, by decide, by decide⟩ =
    some (zeroOf true 28 (Nat.le_refl 28)) := by decide +kernel

-- The same digits divided by a long and by a short number: only the first tie goes up.
example : div ⟨false, 15845632502852867518708799137, 0, by decide, by decide⟩
      ⟨false, 20000000000000000000000, 0, by decide, by decide⟩ =
    some ⟨false, 7922816251426433759354399569, 22, by decide, by decide⟩ := by decide +kernel
example : div ⟨false, 15845632502852867518708799137, 0, by decide, by decide⟩
      ⟨false, 2000000, 0, by decide, by decide⟩ =
    some ⟨false, 7922816251426433759354399568, 6, by decide, by decide⟩ := by decide +kernel

end TypedFormula.Decimal
