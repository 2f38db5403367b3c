import TypedFormula.Decimal.Arithmetic
import TypedFormula.Fault

namespace TypedFormula

def leastInt : Int32 := Int32.ofInt minInt

namespace UnaryOp

def apply (op : UnaryOp) (operand : Value) : Except Cause Value :=
  match op, operand with
  | .negate, .int n => .ok (.int (-n))
  | .negate, .float x => .ok (.float (-x))
  | .negate, .double x => .ok (.double (-x))
  | .negate, .decimal d => .ok (.decimal d.neg)
  | .not, .bool b => .ok (.bool !b)
  | .not, .int n => .ok (.int (~~~n))
  | op, operand => .error (.unaryUndefined op operand.ty)

end UnaryOp

namespace BinaryOp

-- How two numbers of one type lie to each other; NaN lies nowhere.
def order : Value → Value → Option Ordering
  | .int a, .int b => some (compare a.toInt b.toInt)
  | .float a, .float b =>
    if a < b then some .lt else if a == b then some .eq else if b < a then some .gt else none
  | .double a, .double b =>
    if a < b then some .lt else if a == b then some .eq else if b < a then some .gt else none
  | .decimal a, .decimal b => some (a.compare b)
  | _, _ => none

def holds (op : BinaryOp) (order : Option Ordering) : Bool :=
  match op with
  | .less => order == some .lt
  | .lessEqual => order == some .lt || order == some .eq
  | .greater => order == some .gt
  | .greaterEqual => order == some .gt || order == some .eq
  | _ => false

def undefined (op : BinaryOp) (left right : Value) : Except Cause Value :=
  .error (.binaryUndefined op left.ty right.ty)

def applyInt (op : BinaryOp) (a b : Int32) : Except Cause Value :=
  match op with
  | .add => .ok (.int (a + b))
  | .subtract => .ok (.int (a - b))
  | .multiply => .ok (.int (a * b))
  | .divide =>
    if b = 0 then .error .divisionByZero
    else if a = leastInt ∧ b = -1 then .error .integerOverflow
    else .ok (.int (a / b))
  | .bitOr | .logicalOr => .ok (.int (a ||| b))
  | .bitAnd | .logicalAnd => .ok (.int (a &&& b))
  | .bitXor => .ok (.int (a ^^^ b))
  -- Only the low five bits of the amount count.
  | .shiftLeft => .ok (.int (a <<< b))
  | .shiftRight => .ok (.int (a >>> b))
  | op => undefined op (.int a) (.int b)

def applyFloat (op : BinaryOp) (a b : Float32) : Except Cause Value :=
  match op with
  | .add => .ok (.float (a + b))
  | .subtract => .ok (.float (a - b))
  | .multiply => .ok (.float (a * b))
  | .divide => .ok (.float (a / b))
  | op => undefined op (.float a) (.float b)

def applyDouble (op : BinaryOp) (a b : Float) : Except Cause Value :=
  match op with
  | .add => .ok (.double (a + b))
  | .subtract => .ok (.double (a - b))
  | .multiply => .ok (.double (a * b))
  | .divide => .ok (.double (a / b))
  | op => undefined op (.double a) (.double b)

def decimalResult (op : BinaryOp) : Option Decimal → Except Cause Value
  | some d => .ok (.decimal d)
  | none => .error (.decimalOverflow op)

def applyDecimal (op : BinaryOp) (a b : Decimal) : Except Cause Value :=
  match op with
  | .add => decimalResult op (a.add b)
  | .subtract => decimalResult op (a.sub b)
  | .multiply => decimalResult op (a.mul b)
  | .divide => if b.isZero then .error .divisionByZero else decimalResult op (a.div b)
  | op => undefined op (.decimal a) (.decimal b)

def applyBool (op : BinaryOp) (a b : Bool) : Except Cause Value :=
  match op with
  | .bitOr | .logicalOr => .ok (.bool (a || b))
  | .bitAnd | .logicalAnd => .ok (.bool (a && b))
  | .bitXor => .ok (.bool (a != b))
  | op => undefined op (.bool a) (.bool b)

def combine (op : BinaryOp) (left right : Value) : Except Cause Value :=
  match left, right with
  | .int a, .int b => applyInt op a b
  | .float a, .float b => applyFloat op a b
  | .double a, .double b => applyDouble op a b
  | .decimal a, .decimal b => applyDecimal op a b
  | .bool a, .bool b => applyBool op a b
  | left, right => undefined op left right

-- Any two values can be tested for equality; order needs operands of one type.
def apply (op : BinaryOp) (left right : Value) : Except Cause Value :=
  match op with
  | .equal => .ok (.bool (left.same right))
  | .notEqual => .ok (.bool !(left.same right))
  | .less | .lessEqual | .greater | .greaterEqual =>
    if left.ty = right.ty then .ok (.bool (op.holds (order left right)))
    else undefined op left right
  | _ => combine op left right

end BinaryOp
end TypedFormula
