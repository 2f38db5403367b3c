import TypedFormula.Builtins.MathMembers
import TypedFormula.Builtins.TextMembers
import TypedFormula.Registry

namespace TypedFormula.Builtins

variable {σ : Type}

def types : List (TypeInfo σ) :=
  [boolType, intType, floatType, doubleType, decimalType, stringType, mathType]

def registry : Registry σ := .ofTypes types

end TypedFormula.Builtins
