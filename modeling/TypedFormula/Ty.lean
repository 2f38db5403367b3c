import TypedFormula.Text.Escaped

namespace TypedFormula

inductive Ty where
  | void
  | bool
  | int
  | float
  | double
  | decimal
  | text
  | object (name : String)
deriving DecidableEq, Repr

namespace Ty

def name : Ty → String
  | .void => "void"
  | .bool => "bool"
  | .int => "int"
  | .float => "float"
  | .double => "double"
  | .decimal => "decimal"
  | .text => "string"
  | .object name => name

-- The type that a name written by a user stands for.
def ofName (name : String) : Ty :=
  if name = "void" then .void
  else if name = "bool" then .bool
  else if name = "int" then .int
  else if name = "float" then .float
  else if name = "double" then .double
  else if name = "decimal" then .decimal
  else if name = "string" then .text
  else .object name

def isNumeric : Ty → Bool
  | .int | .float | .double | .decimal => true
  | _ => false

def described : Ty → String
  | .void => "Void"
  | .bool => "Bool"
  | .int => "Int"
  | .float => "Float"
  | .double => "Double"
  | .decimal => "Decimal"
  | .text => "Text"
  | .object name => s!"Object({Text.escaped name})"

def listed (types : List Ty) : String := ", ".intercalate (types.map name)

def describedList (types : List Ty) : String :=
  "[" ++ ", ".intercalate (types.map described) ++ "]"

end Ty
end TypedFormula
