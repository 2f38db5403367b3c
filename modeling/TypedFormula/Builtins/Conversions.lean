import TypedFormula.Builtins.Arguments
import TypedFormula.Lexeme
import TypedFormula.Text.Blank
import TypedFormula.TypeInfo

namespace TypedFormula.Builtins

variable {σ : Type}

def readBool (cs : List Char) : Option Bool :=
  if cs = ['t', 'r', 'u', 'e'] then some true
  else if cs = ['f', 'a', 'l', 's', 'e'] then some false
  else none

def readInt (cs : List Char) : Option Int32 :=
  let (negative, digits) := Binary.splitSign cs
  if digits = [] ∨ ¬ digits.all Char.isDigit then none
  else
    let n : Int := if negative then -(digitsValue digits : Int) else digitsValue digits
    if minInt ≤ n ∧ n ≤ maxInt then some (Int32.ofInt n) else none

def readFloat (cs : List Char) : Option Float32 :=
  (Binary.binary32.read cs).map Lexeme.floatOf

def readDouble (cs : List Char) : Option Float :=
  (Binary.binary64.read cs).map Lexeme.doubleOf

-- The value that the first argument denotes once the blanks around it are gone.
def parseArg {α : Type} (read : List Char → Option α) (make : α → Value) (typeName : String)
    (args : List Value) : Except HostError Value := do
  let raw ← textArg args 0
  match read (Text.trim raw.toList) with
  | some a => .ok (make a)
  | none => fail s!"cannot parse {Text.escaped raw} as {typeName}"

def toStringMethod : Declaration σ :=
  .valueMethod "ToString" [] .text fun receiver _ => pure (.text receiver.toText)

def parseMethod {α : Type} (read : List Char → Option α) (make : α → Value) (ty : Ty) :
    Declaration σ :=
  .staticMethod "Parse" [.text] ty fun args => .ofExcept (parseArg read make ty.name args)

def boolType : TypeInfo σ := .ofDeclarations "bool"
  [toStringMethod, parseMethod readBool .bool .bool]

def intType : TypeInfo σ := .ofDeclarations "int"
  [toStringMethod,
    .staticField "MaxValue" .int (.int (Int32.ofNat maxInt)),
    .staticField "MinValue" .int (.int (Int32.ofInt minInt)),
    parseMethod readInt .int .int]

def floatType : TypeInfo σ := .ofDeclarations "float"
  [toStringMethod, parseMethod readFloat .float .float]

def maxDouble : Nat := Binary.binary64.infinityBits - 1

def doubleType : TypeInfo σ := .ofDeclarations "double"
  [toStringMethod,
    .staticField "MaxValue" .double (.double (Lexeme.doubleOf maxDouble)),
    .staticField "MinValue" .double
      (.double (Lexeme.doubleOf (Binary.binary64.withSign true maxDouble))),
    .staticField "NaN" .double (.double (Lexeme.doubleOf 0x7FF8000000000000)),
    parseMethod readDouble .double .double]

def decimalType : TypeInfo σ := .ofDeclarations "decimal"
  [toStringMethod,
    .staticField "MaxValue" .decimal (.decimal .largest),
    .staticField "MinValue" .decimal (.decimal .smallest),
    parseMethod Decimal.ofChars? .decimal .decimal]

end TypedFormula.Builtins
