import TypedFormula.Binary.Format
import TypedFormula.Digits

namespace TypedFormula.Binary

structure Scientific where
  significand : Nat
  exponent : Int
deriving DecidableEq, Repr

def splitSign : List Char → Bool × List Char
  | '-' :: cs => (true, cs)
  | '+' :: cs => (false, cs)
  | cs => (false, cs)

-- What may follow the digits: nothing, or an exponent with at least one digit.
def readExponent : List Char → Option Int
  | [] => some 0
  | c :: cs =>
    if c = 'e' ∨ c = 'E' then
      let (negative, digits) := splitSign cs
      if digits ≠ [] ∧ digits.all Char.isDigit then
        some (if negative then -(digitsValue digits : Int) else digitsValue digits)
      else none
    else none

def splitFraction : List Char → List Char × List Char
  | '.' :: cs => (cs.takeWhile Char.isDigit, cs.dropWhile Char.isDigit)
  | cs => ([], cs)

-- An unsigned number; it has a digit before or behind the point.
def readScientific (cs : List Char) : Option Scientific :=
  let whole := cs.takeWhile Char.isDigit
  let (fraction, rest) := splitFraction (cs.dropWhile Char.isDigit)
  if whole = [] ∧ fraction = [] then none
  else (readExponent rest).map fun e =>
    ⟨digitsValue (whole ++ fraction), e - fraction.length⟩

def Format.readMagnitude (f : Format) (cs : List Char) : Option Nat :=
  match readScientific cs with
  | some n => some (f.ofScientific n.significand n.exponent)
  | none =>
    let word := String.ofList (cs.map Char.toLower)
    if word = "inf" ∨ word = "infinity" then some f.infinityBits
    else if word = "nan" then some (f.infinityBits + twoPow (f.fractionBits - 1))
    else none

def Format.read (f : Format) (cs : List Char) : Option Nat :=
  let (negative, rest) := splitSign cs
  (f.readMagnitude rest).map (f.withSign negative)

example : readScientific "12.50e-3".toList = some ⟨1250, -5⟩ := by decide
example : readScientific ".".toList = none ∧ readScientific "1e".toList = none := by decide

end TypedFormula.Binary
