import TypedFormula.Binary.Integral
import TypedFormula.Builtins.Conversions
import TypedFormula.Decimal.Rounding

namespace TypedFormula.Builtins

variable {σ : Type}

-- The least int has no absolute value.
def absInt (n : Int32) : Except HostError Int32 :=
  if n.toInt = minInt then fail "Abs overflows for int.MinValue"
  else .ok (Int32.ofInt n.toInt.natAbs)

def integral (way : Binary.Direction) (x : Float) : Float :=
  if x.isNaN then x else Lexeme.doubleOf (Binary.binary64.integral way x.toBits.toNat)

def minOfInts (a b : Int32) : Int32 := if b.toInt < a.toInt then b else a

def maxOfInts (a b : Int32) : Int32 := if a.toInt < b.toInt then b else a

-- What is no number counts only if both operands are none; of two equal numbers the first is taken.
def minOfDoubles (a b : Float) : Float :=
  if a.isNaN then b else if b.isNaN then a else if b < a then b else a

def maxOfDoubles (a b : Float) : Float :=
  if a.isNaN then b else if b.isNaN then a else if a < b then b else a

def onInt (f : Int32 → Except HostError Int32) (args : List Value) : Except HostError Value := do
  .ok (.int (← f (← intArg args 0)))

def onInts (f : Int32 → Int32 → Int32) (args : List Value) : Except HostError Value := do
  let a ← intArg args 0
  .ok (.int (f a (← intArg args 1)))

def onDouble (f : Float → Float) (args : List Value) : Except HostError Value := do
  .ok (.double (f (← doubleArg args 0)))

def onDoubles (f : Float → Float → Float) (args : List Value) : Except HostError Value := do
  let a ← doubleArg args 0
  .ok (.double (f a (← doubleArg args 1)))

def onDecimal (f : Decimal → Decimal) (args : List Value) : Except HostError Value := do
  .ok (.decimal (f (← decimalArg args 0)))

def onDecimals (f : Decimal → Decimal → Decimal) (args : List Value) : Except HostError Value := do
  let a ← decimalArg args 0
  .ok (.decimal (f a (← decimalArg args 1)))

def mathType : TypeInfo σ := .ofDeclarations "Math"
  [.staticField "PI" .double (.double (Lexeme.doubleOf 0x400921FB54442D18)),
    .staticField "E" .double (.double (Lexeme.doubleOf 0x4005BF0A8B145769)),
    .staticMethod "Abs" [.int] .int fun args => .ofExcept (onInt absInt args),
    .staticMethod "Abs" [.double] .double fun args => .ofExcept (onDouble Float.abs args),
    .staticMethod "Abs" [.decimal] .decimal fun args => .ofExcept (onDecimal Decimal.abs args),
    .staticMethod "Pow" [.double, .double] .double
      fun args => .ofExcept (onDoubles Float.pow args),
    .staticMethod "Sqrt" [.double] .double fun args => .ofExcept (onDouble Float.sqrt args),
    .staticMethod "Floor" [.double] .double
      fun args => .ofExcept (onDouble (integral .down) args),
    .staticMethod "Ceiling" [.double] .double
      fun args => .ofExcept (onDouble (integral .up) args),
    .staticMethod "Round" [.double] .double
      fun args => .ofExcept (onDouble (integral .nearest) args),
    .staticMethod "Round" [.decimal] .decimal
      fun args => .ofExcept (onDecimal Decimal.round args),
    .staticMethod "Min" [.int, .int] .int fun args => .ofExcept (onInts minOfInts args),
    .staticMethod "Max" [.int, .int] .int fun args => .ofExcept (onInts maxOfInts args),
    .staticMethod "Min" [.double, .double] .double
      fun args => .ofExcept (onDoubles minOfDoubles args),
    .staticMethod "Max" [.double, .double] .double
      fun args => .ofExcept (onDoubles maxOfDoubles args),
    .staticMethod "Min" [.decimal, .decimal] .decimal
      fun args => .ofExcept (onDecimals Decimal.min args),
    .staticMethod "Max" [.decimal, .decimal] .decimal
      fun args => .ofExcept (onDecimals Decimal.max args)]

end TypedFormula.Builtins
