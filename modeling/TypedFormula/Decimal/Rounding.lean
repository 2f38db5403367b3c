import TypedFormula.Decimal.Basic
import TypedFormula.RoundDiv

namespace TypedFormula.Decimal

def excessDigits (n : Nat) : Nat :=
  if n < bound then 0 else excessDigits (n / 10) + 1
decreasing_by
  rename_i large
  have : 0 < n := Nat.lt_of_lt_of_le (by decide) (Nat.le_of_not_lt large)
  omega

-- Rounding up may itself reach the bound; then one more place is dropped. A number that has become zero
-- keeps its sign.
def settle (negative : Bool) (coefficient scale : Nat) : Option Decimal :=
  if coefficient < bound then ofSigned? negative coefficient scale
  else match scale with
    | 0 => none
    | s + 1 => ofSigned? negative (roundDiv coefficient 10) s

-- The number with coefficient `n` and `scale` places, however large either is. There is no such
-- number when places before the point would have to go.
def fit (negative : Bool) (n scale : Nat) : Option Decimal :=
  let drop := Nat.max (excessDigits n) (scale - maxScale)
  if scale < drop then none
  else settle negative (roundDiv n (tenPow drop)) (scale - drop)

-- To a whole number; one without places is left as it is. A zero keeps its sign, but a number that
-- becomes zero loses it.
def round (d : Decimal) : Decimal :=
  if d.isZero then zeroOf d.negative 0 (Nat.zero_le maxScale)
  else if d.scale = 0 then d
  else (ofParts? d.negative (roundDiv d.coefficient (tenPow d.scale)) 0).getD d

end TypedFormula.Decimal
