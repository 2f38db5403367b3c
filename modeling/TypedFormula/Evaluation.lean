import TypedFormula.Expr
import TypedFormula.Operator.Apply

namespace TypedFormula

abbrev Evaluation (σ : Type) := EStateM Fault σ

variable {σ : Type}

def Evaluation.ofExcept {α : Type} (span : Span) : Except Cause α → Evaluation σ α
  | .ok a => pure a
  | .error cause => throw ⟨cause, span⟩

def Evaluation.access {α : Type} (accessor : String) (span : Span) (run : Access σ α) :
    Evaluation σ α := fun state =>
  match run state with
  | .ok a after => .ok a after
  | .error e after => .error ⟨.hostFailure accessor e.message, span⟩ after

namespace Expr

mutual

def evaluate (context : Option Object) : Expr σ → Evaluation σ Value
  | .literal value _ => pure value
  | .unary op operand _ span => do
    let value ← evaluate context operand
    .ofExcept span (op.apply value)
  | .binary op left right _ span => do
    let first ← evaluate context left
    let second ← evaluate context right
    .ofExcept span (op.apply first second)
  | .member receiver m span => do
    let target ← evaluateReceiver context span receiver
    .access m.name span (m.get target)
  | .call receiver m args span => do
    let target ← evaluateReceiver context span receiver
    let values ← evaluateArgs context args
    .access m.name span (m.invoke target values)
  | .index receiver ix args span => do
    let target ← evaluateReceiver context span receiver
    let values ← evaluateArgs context args
    .access "indexer" span (ix.get target values)

-- A static accessor is given the unit value for a receiver.
def evaluateReceiver (context : Option Object) (span : Span) :
    Receiver (Expr σ) → Evaluation σ Value
  | .context =>
    match context with
    | some o => pure (.object o)
    | none => throw ⟨.noContextObject, span⟩
  | .type _ => pure .unit
  | .value target => evaluate context target

def evaluateArgs (context : Option Object) : List (Expr σ) → Evaluation σ (List Value)
  | [] => pure []
  | e :: es => do
    let value ← evaluate context e
    let values ← evaluateArgs context es
    pure (value :: values)

end

end Expr

structure CompiledFormula (σ : Type) where
  expr : Expr σ
  context : Option Object

namespace CompiledFormula

def resultType (f : CompiledFormula σ) : Ty := f.expr.ty

def evaluate (f : CompiledFormula σ) : Evaluation σ Value := f.expr.evaluate f.context

-- Evaluates against another context object, which has to be of the type that the formula was bound for.
def evaluateWith (f : CompiledFormula σ) (context : Object) : Evaluation σ Value :=
  match f.context with
  | some bound =>
    if bound.typeName = context.typeName then f.expr.evaluate (some context)
    else throw ⟨.foreignContext bound.typeName context.typeName, f.expr.span⟩
  | none => f.expr.evaluate (some context)

def described (f : CompiledFormula σ) : String :=
  let context := match f.context with
    | some o => s!"Some({o.described})"
    | none => "None"
  s!"CompiledExpr \x7b ty: {f.expr.ty.described}, context: {context}, .. \x7d"

end CompiledFormula
end TypedFormula
