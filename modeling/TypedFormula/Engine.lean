import TypedFormula.Evaluation
import TypedFormula.Parser

namespace TypedFormula

variable {σ : Type}

namespace Engine

def scope (registry : Registry σ) (context : Option Object) : Scope σ :=
  ⟨registry, context.map (·.typeName)⟩

def ready (e : Expr σ) (context : Option Object) : CompiledFormula σ × List Note :=
  (⟨e, context⟩, [.compiling e.print e.nodeCount])

def parse (registry : Registry σ) (context : Option Object) (limits : Limits) (text : String) :
    Except Fault (Expr σ) × List Note :=
  Parser.run (scope registry context) limits text

def compile (registry : Registry σ) (context : Option Object) (limits : Limits) (text : String) :
    Except Fault (CompiledFormula σ) × List Note :=
  match parse registry context limits text with
  | (.ok e, notes) =>
    let (compiled, more) := ready e context
    (.ok compiled, notes ++ more)
  | (.error fault, notes) => (.error fault, notes)

def getValue (registry : Registry σ) (context : Option Object) (text : String) (state : σ) :
    Except Fault Value × List Note × σ :=
  match compile registry context {} text with
  | (.error fault, notes) => (.error fault, notes, state)
  | (.ok compiled, notes) =>
    match compiled.evaluate state with
    | .ok value after => (.ok value, notes, after)
    | .error fault after => (.error fault, notes, after)

end Engine
end TypedFormula
