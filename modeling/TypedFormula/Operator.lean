import TypedFormula.Value

namespace TypedFormula

inductive UnaryOp where
  | negate
  | not
deriving DecidableEq, Repr

inductive BinaryOp where
  | logicalOr
  | logicalAnd
  | bitOr
  | bitXor
  | bitAnd
  | equal
  | notEqual
  | less
  | lessEqual
  | greater
  | greaterEqual
  | shiftLeft
  | shiftRight
  | add
  | subtract
  | multiply
  | divide
deriving DecidableEq, Repr

namespace UnaryOp

def symbol : UnaryOp → String
  | .negate => "-"
  | .not => "!"

def label : UnaryOp → String
  | .negate => "Negate"
  | .not => "Not"

-- The type of the result, if the operator takes the operand: a sign any number, a complement a truth
-- value or an int.
def resultType (op : UnaryOp) (operand : Ty) : Option Ty :=
  match op with
  | .negate => if operand.isNumeric then some operand else none
  | .not => if operand = .bool ∨ operand = .int then some operand else none

end UnaryOp

namespace BinaryOp

def symbol : BinaryOp → String
  | .logicalOr => "||"
  | .logicalAnd => "&&"
  | .bitOr => "|"
  | .bitXor => "^"
  | .bitAnd => "&"
  | .equal => "="
  | .notEqual => "!="
  | .less => "<"
  | .lessEqual => "<="
  | .greater => ">"
  | .greaterEqual => ">="
  | .shiftLeft => "<<"
  | .shiftRight => ">>"
  | .add => "+"
  | .subtract => "-"
  | .multiply => "*"
  | .divide => "/"

def label : BinaryOp → String
  | .logicalOr => "LogicalOr"
  | .logicalAnd => "LogicalAnd"
  | .bitOr => "BitOr"
  | .bitXor => "BitXor"
  | .bitAnd => "BitAnd"
  | .equal => "Equal"
  | .notEqual => "NotEqual"
  | .less => "Less"
  | .lessEqual => "LessEqual"
  | .greater => "Greater"
  | .greaterEqual => "GreaterEqual"
  | .shiftLeft => "ShiftLeft"
  | .shiftRight => "ShiftRight"
  | .add => "Add"
  | .subtract => "Subtract"
  | .multiply => "Multiply"
  | .divide => "Divide"

-- The layer of the grammar that an operator belongs to. Layer 1 binds tightest, layer 10 least.
def layer : BinaryOp → Nat
  | .multiply | .divide => 1
  | .add | .subtract => 2
  | .shiftLeft | .shiftRight => 3
  | .less | .lessEqual | .greater | .greaterEqual => 4
  | .equal | .notEqual => 5
  | .bitAnd => 6
  | .bitXor => 7
  | .bitOr => 8
  | .logicalAnd => 9
  | .logicalOr => 10

def layers : Nat := 10

def resultFor (op : BinaryOp) (operand : Ty) : Option Ty :=
  match op with
  | .add | .subtract | .multiply | .divide => if operand.isNumeric then some operand else none
  | .logicalOr | .logicalAnd | .bitOr | .bitXor | .bitAnd =>
    if operand = .int ∨ operand = .bool then some operand else none
  | .shiftLeft | .shiftRight => if operand = .int then some .int else none
  | .equal | .notEqual => if operand = .void then none else some .bool
  | .less | .lessEqual | .greater | .greaterEqual =>
    if operand.isNumeric then some .bool else none

def resultType (op : BinaryOp) (left right : Ty) : Option Ty :=
  if left = right then op.resultFor left else none

theorem layer_le (op : BinaryOp) : 1 ≤ op.layer ∧ op.layer ≤ layers := by
  cases op <;> decide

theorem tighter_lt {n : Nat} (op : BinaryOp) (fits : op.layer ≤ n) : op.layer - 1 < n := by
  have := op.layer_le.1
  omega

theorem eq_of_resultType {op : BinaryOp} {left right result : Ty}
    (typed : op.resultType left right = some result) : left = right := by
  unfold resultType at typed
  split at typed
  · assumption
  · cases typed

end BinaryOp
end TypedFormula
