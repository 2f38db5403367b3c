import TypedFormula.Decimal.Basic
import TypedFormula.Digits
import TypedFormula.RoundDiv

namespace TypedFormula.Decimal

def toChars (d : Decimal) : List Char :=
  (if d.negative then ['-'] else []) ++ pointed (Nat.toDigits 10 d.coefficient) d.scale

def toText (d : Decimal) : String := String.ofList d.toChars

structure Reading where
  coefficient : Nat := 0
  scale : Nat := 0
  pointSeen : Bool := false
  digitSeen : Bool := false

-- Whether the coefficient was long before its last digit: within 255 of the largest one that takes
-- another digit in 64 bits, or above it.
def Reading.isLong (r : Reading) : Bool := 1844674407370954906 ≤ r.coefficient / 10

-- The digit that a full number is rounded on, the next one in its text. Underscores before it are
-- skipped after a long coefficient; after a shorter one an underscore stands for a zero.
def Reading.roundingDigit (r : Reading) (cs : List Char) : Nat :=
  match if r.isLong then cs.dropWhile fun c => c = '_' else cs with
  | [] => 0
  | c :: _ => if c = '_' then 0 else digitValue c

-- The coefficient and scale rounded on a digit that they have no room for. One place more goes if
-- rounding up reaches the bound.
def Reading.rounded (r : Reading) (digit : Nat) : Option (Nat × Nat) :=
  if digit < 5 then some (r.coefficient, r.scale)
  else if r.coefficient + 1 < bound then some (r.coefficient + 1, r.scale)
  else match r.scale with
    | 0 => none
    | s + 1 => some (roundHalfUp r.coefficient 10, s)

-- The end of a number without room for more digits. Only digits and underscores may be left.
def Reading.finish (r : Reading) (cs : List Char) : Option (Nat × Nat) :=
  if cs.all fun c => c.isDigit || c = '_' then r.rounded (r.roundingDigit cs) else none

def readDigits (r : Reading) : List Char → Option (Nat × Nat)
  | [] => if r.digitSeen then some (r.coefficient, r.scale) else none
  | c :: cs =>
    if r.pointSeen && r.scale = maxScale then r.finish (c :: cs)
    else if c.isDigit then
      let next := r.coefficient * 10 + digitValue c
      if next < bound then
        readDigits
          { r with
            coefficient := next, scale := if r.pointSeen then r.scale + 1 else r.scale,
            digitSeen := true } cs
      else if r.pointSeen then r.finish (c :: cs)
      else none
    else if c = '.' && !r.pointSeen then readDigits { r with pointSeen := true } cs
    else if c = '_' && r.digitSeen then readDigits r cs
    else none

-- A number without exponent; a zero that is read has no sign.
def readPlain : List Char → Option Decimal
  | '-' :: cs => (readDigits {} cs).bind fun read => ofParts? true read.1 read.2
  | '+' :: cs => (readDigits {} cs).bind fun read => ofParts? false read.1 read.2
  | cs => (readDigits {} cs).bind fun read => ofParts? false read.1 read.2

def readExponent (cs : List Char) : Option Nat :=
  let digits := match cs with
    | '+' :: digits => digits
    | digits => digits
  if digits = [] ∨ ¬ digits.all Char.isDigit then none else some (digitsValue digits)

-- The point moved right. The places that are left behind it stay.
def pointRight (d : Decimal) (e : Nat) : Option Decimal :=
  ofParts? d.negative (d.coefficient * tenPow (e - d.scale)) (d.scale - e)

-- The point moved left. Places beyond the largest scale are rounded away, a half going up; the sign
-- stays, even on a number that becomes zero.
def pointLeft (d : Decimal) (e : Nat) : Option Decimal :=
  let drop := d.scale + e - maxScale
  ofSigned? d.negative (roundHalfUp d.coefficient (tenPow drop)) (d.scale + e - drop)

def movePoint (d : Decimal) : List Char → Option Decimal
  | '-' :: cs => (readExponent cs).bind fun e => if maxScale < e then none else d.pointLeft e
  | cs => (readExponent cs).bind fun e => if maxScale < e then none else d.pointRight e

def isExponentMark (c : Char) : Bool := c = 'e' || c = 'E'

def ofChars? (cs : List Char) : Option Decimal :=
  match cs.dropWhile fun c => !isExponentMark c with
  | [] => readPlain cs
  | _ :: exponent => (readPlain (cs.takeWhile fun c => !isExponentMark c)).bind fun d => d.movePoint exponent

example : ((ofChars? "-1_0.50".toList).map toText) = some "-10.50" := by decide
example : ((ofChars? "0.00000000000000000000000000015".toList).map toText) =
    some "0.0000000000000000000000000002" := by decide +kernel
example : ((ofChars? "0.0000000000000000000000000001_5".toList).map toText) =
    some "0.0000000000000000000000000001" := by decide +kernel
example : ((ofChars? "0.1234567890123456789012345678_5".toList).map toText) =
    some "0.1234567890123456789012345679" := by decide +kernel
example : ((ofChars? "0.12345678901234567890123456785.".toList).map toText) = none := by decide +kernel
example : ((ofChars? "-1.50e1".toList).map toText) = some "-15.0" := by decide
example : ((ofChars? "1.5e-28".toList).map toText) = some "0.0000000000000000000000000002" := by decide +kernel
example : ((ofChars? "-0.3e-28".toList).map toText) =
    some "-0.0000000000000000000000000000" := by decide +kernel

end TypedFormula.Decimal
