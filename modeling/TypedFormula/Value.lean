import TypedFormula.Ty
import TypedFormula.Binary.Layout
import TypedFormula.Decimal.Text

namespace TypedFormula

def maxInt : Nat := 2147483647

def minInt : Int := -2147483648

-- A host object as formulas see it: the type it claims and which object it is. What it holds belongs to
-- the host.
structure Object where
  typeName : String
  identity : Nat
deriving DecidableEq, Repr

namespace Object

def ty (o : Object) : Ty := .object o.typeName

-- Two objects are the same when the host says they are one, whatever type they claim.
def same (a b : Object) : Bool := a.identity == b.identity

def described (o : Object) : String := s!"Object({o.typeName})"

end Object

inductive Value where
  | unit
  | bool (b : Bool)
  | int (n : Int32)
  | float (x : Float32)
  | double (x : Float)
  | decimal (d : Decimal)
  | text (s : String)
  | object (o : Object)
deriving DecidableEq

namespace Value

def ty : Value → Ty
  | .unit => .void
  | .bool _ => .bool
  | .int _ => .int
  | .float _ => .float
  | .double _ => .double
  | .decimal _ => .decimal
  | .text _ => .text
  | .object o => o.ty

-- Equality as formulas test it: numbers by value, so that no number equals NaN and both zeros are
-- equal; objects by identity; values of two types never.
def same : Value → Value → Bool
  | .unit, .unit => true
  | .bool a, .bool b => a == b
  | .int a, .int b => a == b
  | .float a, .float b => a == b
  | .double a, .double b => a == b
  | .decimal a, .decimal b => a.same b
  | .text a, .text b => a == b
  | .object a, .object b => a.same b
  | _, _ => false

def boolText (b : Bool) : String := if b then "true" else "false"

def intText (n : Int32) : String := toString n.toInt

def floatText (x : Float32) : String :=
  Binary.plainLayout.text Binary.binary32 x.toBits.toNat

def doubleText (x : Float) : String :=
  Binary.plainLayout.text Binary.binary64 x.toBits.toNat

def toText : Value → String
  | .unit => ""
  | .bool b => boolText b
  | .int n => intText n
  | .float x => floatText x
  | .double x => doubleText x
  | .decimal d => d.toText
  | .text s => s
  | .object o => s!"<{o.typeName}>"

def describedFloat (x : Float32) : String :=
  Binary.describedLayout.text Binary.binary32 x.toBits.toNat

def describedDouble (x : Float) : String :=
  Binary.describedLayout.text Binary.binary64 x.toBits.toNat

def described : Value → String
  | .unit => "Unit"
  | .bool b => s!"Bool({boolText b})"
  | .int n => s!"Int({intText n})"
  | .float x => s!"Float({describedFloat x})"
  | .double x => s!"Double({describedDouble x})"
  | .decimal d => s!"Decimal({d.toText})"
  | .text s => s!"Text({Text.escaped s})"
  | .object o => s!"Object({o.described})"

end Value
end TypedFormula
