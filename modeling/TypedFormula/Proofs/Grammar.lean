import TypedFormula.Proofs.Trees
import TypedFormula.Token

namespace TypedFormula.Grammar

def unaryOps : List (TokenKind × UnaryOp) := [(.minus,.negate),(.not,.not)]

-- The operators of a layer. The first layer binds tightest, the last one least.
def binaryOps : Nat → List (TokenKind × BinaryOp)
  | 1 => [(.star,.multiply),(.slash,.divide)]
  | 2 => [(.plus,.add),(.minus,.subtract)]
  | 3 => [(.shiftLeft,.shiftLeft),(.shiftRight,.shiftRight)]
  | 4 => [(.less,.less),(.lessEqual,.lessEqual),(.greater,.greater),(.greaterEqual,.greaterEqual)]
  | 5 => [(.equal,.equal),(.notEqual,.notEqual)]
  | 6 => [(.bitAnd,.bitAnd)]
  | 7 => [(.bitXor,.bitXor)]
  | 8 => [(.bitOr,.bitOr)]
  | 9 => [(.logicalAnd,.logicalAnd)]
  | 10 => [(.logicalOr,.logicalOr)]
  | _ => []

def outermost : Nat := 10

-- How a formula comes about, layer by layer. Layer 0 holds the primaries.
inductive Derivation : Nat → Type where
  | literal (token : Token) (value : Value) (is : token.kind.literal? = some value) : Derivation 0
  | group (opening : Token) (inside : Derivation outermost) (closing : Token)
      (opens : opening.kind = .leftParen) (closes : closing.kind = .rightParen) : Derivation 0
  | unary (token : Token) (op : UnaryOp) (is : (token.kind,op) ∈ unaryOps) (operand : Derivation 0) :
      Derivation 0
  | tighter {n : Nat} (inside : Derivation n) : Derivation (n + 1)
  | binary {n : Nat} (left : Derivation (n + 1)) (token : Token) (op : BinaryOp)
      (is : (token.kind,op) ∈ binaryOps (n + 1)) (right : Derivation n) : Derivation (n + 1)

namespace Derivation

def tokens : {n : Nat} → Derivation n → List Token
  | _, .literal token _ _ => [token]
  | _, .group opening inside closing _ _ => opening :: inside.tokens ++ [closing]
  | _, .unary token _ _ operand => token :: operand.tokens
  | _, .tighter inside => inside.tokens
  | _, .binary left token _ _ right => left.tokens ++ token :: right.tokens

-- The tree, without groups. An operator that does not take its operands leaves a node that does not
-- type-check.
def tree {σ : Type} : {n : Nat} → Derivation n → Expr σ
  | _, .literal token value _ => .literal value token.span
  | _, .group opening inside closing _ _ => inside.tree.withSpan (opening.span.union closing.span)
  | _, .unary token op _ operand =>
    let operand : Expr σ := operand.tree
    .unary op operand ((op.resultType operand.ty).getD .void) (token.span.union operand.span)
  | _, .tighter inside => inside.tree
  | _, .binary left _ op _ right =>
    let first : Expr σ := left.tree
    let second : Expr σ := right.tree
    .binary op first second ((op.resultType first.ty second.ty).getD .void)
      (first.span.union second.span)

-- The most groups and unary operators that are open at one token.
def depth : {n : Nat} → Derivation n → Nat
  | _, .literal _ _ _ => 0
  | _, .group _ inside _ _ _ => inside.depth + 1
  | _, .unary _ _ _ operand => operand.depth + 1
  | _, .tighter inside => inside.depth
  | _, .binary left _ _ _ right => max left.depth right.depth

end Derivation

def Plain (kind : TokenKind) : Prop :=
  kind.literal?.isSome = true ∨ kind = .leftParen ∨ kind = .rightParen ∨
    (∃ op, (kind,op) ∈ unaryOps) ∨ ∃ n op, (kind,op) ∈ binaryOps n

end TypedFormula.Grammar
