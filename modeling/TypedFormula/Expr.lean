import TypedFormula.Accessor
import TypedFormula.Operator
import TypedFormula.Span

namespace TypedFormula

-- What an accessor is applied to: the context object, a registered type, or the value of an expression.
inductive Receiver (ε : Type) where
  | context
  | type (name : String)
  | value (target : ε)

inductive Expr (σ : Type) where
  | literal (value : Value) (span : Span)
  | unary (op : UnaryOp) (operand : Expr σ) (ty : Ty) (span : Span)
  | binary (op : BinaryOp) (left right : Expr σ) (ty : Ty) (span : Span)
  | member (receiver : Receiver (Expr σ)) (member : Member σ) (span : Span)
  | call (receiver : Receiver (Expr σ)) (method : Method σ) (args : List (Expr σ)) (span : Span)
  | index (receiver : Receiver (Expr σ)) (indexer : Indexer σ) (args : List (Expr σ)) (span : Span)

def Receiver.target? {ε : Type} : Receiver ε → Option ε
  | .value target => some target
  | _ => none

namespace Expr

variable {σ : Type}

def ty : Expr σ → Ty
  | .literal value _ => value.ty
  | .unary _ _ ty _ => ty
  | .binary _ _ _ ty _ => ty
  | .member _ m _ => m.ty
  | .call _ m _ _ => m.result
  | .index _ ix _ _ => ix.result

def span : Expr σ → Span
  | .literal _ span => span
  | .unary _ _ _ span => span
  | .binary _ _ _ _ span => span
  | .member _ _ span => span
  | .call _ _ _ span => span
  | .index _ _ _ span => span

-- The same node for a wider piece of text, such as one with parentheses around it.
def withSpan (span : Span) : Expr σ → Expr σ
  | .literal value _ => .literal value span
  | .unary op operand ty _ => .unary op operand ty span
  | .binary op left right ty _ => .binary op left right ty span
  | .member receiver m _ => .member receiver m span
  | .call receiver m args _ => .call receiver m args span
  | .index receiver ix args _ => .index receiver ix args span

def receiver? : Expr σ → Option (Receiver (Expr σ))
  | .member receiver _ _ => some receiver
  | .call receiver _ _ _ => some receiver
  | .index receiver _ _ _ => some receiver
  | _ => none

-- The nodes below a node: operands left to right, or a receiver that is a value and then the arguments.
def children : Expr σ → List (Expr σ)
  | .literal _ _ => []
  | .unary _ operand _ _ => [operand]
  | .binary _ left right _ _ => [left, right]
  | .member receiver _ _ => receiver.target?.toList
  | .call receiver _ args _ => receiver.target?.toList ++ args
  | .index receiver _ args _ => receiver.target?.toList ++ args

theorem ty_withSpan (e : Expr σ) (span : Span) : (e.withSpan span).ty = e.ty := by
  cases e <;> rfl

theorem span_withSpan (e : Expr σ) (span : Span) : (e.withSpan span).span = span := by
  cases e <;> rfl

theorem children_withSpan (e : Expr σ) (span : Span) : (e.withSpan span).children = e.children := by
  cases e <;> rfl

end Expr
end TypedFormula
