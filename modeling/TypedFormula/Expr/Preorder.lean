import TypedFormula.Expr

namespace TypedFormula
namespace Expr

variable {σ : Type}

mutual

def preorderAt (depth : Nat) : Expr σ → List (Nat × Expr σ)
  | .literal value span => [(depth, .literal value span)]
  | .unary op operand ty span =>
    (depth, .unary op operand ty span) :: preorderAt (depth + 1) operand
  | .binary op left right ty span =>
    (depth, .binary op left right ty span) ::
      (preorderAt (depth + 1) left ++ preorderAt (depth + 1) right)
  | .member receiver m span =>
    (depth, .member receiver m span) :: receiverPreorder (depth + 1) receiver
  | .call receiver m args span =>
    (depth, .call receiver m args span) ::
      (receiverPreorder (depth + 1) receiver ++ listPreorder (depth + 1) args)
  | .index receiver ix args span =>
    (depth, .index receiver ix args span) ::
      (receiverPreorder (depth + 1) receiver ++ listPreorder (depth + 1) args)

def receiverPreorder (depth : Nat) : Receiver (Expr σ) → List (Nat × Expr σ)
  | .context => []
  | .type _ => []
  | .value target => preorderAt depth target

def listPreorder (depth : Nat) : List (Expr σ) → List (Nat × Expr σ)
  | [] => []
  | e :: es => preorderAt depth e ++ listPreorder depth es

end

theorem listPreorder_eq (depth : Nat) (args : List (Expr σ)) :
    listPreorder depth args = args.flatMap (preorderAt depth) := by
  induction args with
  | nil => rfl
  | cons e es ih => rw [listPreorder,List.flatMap_cons,ih]

theorem receiverPreorder_eq (depth : Nat) (receiver : Receiver (Expr σ)) :
    receiverPreorder depth receiver = receiver.target?.toList.flatMap (preorderAt depth) := by
  cases receiver <;> simp [receiverPreorder,Receiver.target?]

theorem preorderAt_eq (depth : Nat) (e : Expr σ) :
    preorderAt depth e = (depth,e) :: e.children.flatMap (preorderAt (depth + 1)) := by
  cases e <;>
    simp [preorderAt,children,receiverPreorder_eq,listPreorder_eq,List.flatMap_append]

def preorder (e : Expr σ) : List (Nat × Expr σ) := preorderAt 0 e

def nodeCount (e : Expr σ) : Nat := e.preorder.length

end Expr
end TypedFormula
