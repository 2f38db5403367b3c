import TypedFormula.Expr
import TypedFormula.Text.Quoted

namespace TypedFormula
namespace Expr

variable {σ : Type}

-- A number literal always shows a point, which keeps it apart from an int before its suffix.
def numberText (digits : String) (suffix : String) : String :=
  if digits.toList.any fun c => c == '.' || c == 'e' || c == 'E' then digits ++ suffix
  else digits ++ ".0" ++ suffix

def literalText : Value → String
  | .float x => numberText (Value.floatText x) "f"
  | .double x => numberText (Value.doubleText x) ""
  | .decimal d => numberText d.toText "m"
  | .text s => String.ofList (Text.Quoted.literal s.toList)
  | value => value.toText

-- Whether a member suffix could be misread as part of the node: a point after a number, or a suffix that
-- binds tighter than the operator.
def needsParens : Expr σ → Bool
  | .literal _ _ => true
  | .unary _ _ _ _ => true
  | _ => false

mutual

def print : Expr σ → String
  | .literal value _ => literalText value
  | .unary op operand _ _ => op.symbol ++ print operand
  | .binary op left right _ _ => "(" ++ print left ++ " " ++ op.symbol ++ " " ++ print right ++ ")"
  | .member receiver m _ => printReceiver receiver ++ m.name
  | .call receiver m args _ => printReceiver receiver ++ m.name ++ "(" ++ printArgs args ++ ")"
  | .index receiver _ args _ => printTarget receiver ++ "[" ++ printArgs args ++ "]"

def printReceiver : Receiver (Expr σ) → String
  | .context => ""
  | .type name => name ++ "."
  | .value target =>
    if needsParens target then "(" ++ print target ++ ")." else print target ++ "."

def printTarget : Receiver (Expr σ) → String
  | .context => ""
  | .type _ => ""
  | .value target => print target

def printArgs : List (Expr σ) → String
  | [] => ""
  | [e] => print e
  | e :: es => print e ++ ", " ++ printArgs es

end

end Expr
end TypedFormula
