import TypedFormula.Ty

namespace TypedFormula

inductive NoteLevel where
  | trace
  | debug
  | warn
deriving DecidableEq, Repr

def NoteLevel.label : NoteLevel → String
  | .trace => "trace"
  | .debug => "debug"
  | .warn => "warn"

inductive Note where
  | boundMember (name typeName : String)
  | boundStatic (typeName name : String)
  | boundMethod (name : String) (types : List Ty) (typeName : String)
  | boundIndexer (types : List Ty) (typeName : String)
  | parsed (formula printed : String) (ty : Ty)
  | compiling (printed : String) (nodes : Nat)
  | replacing (typeName : String)
deriving DecidableEq

namespace Note

def level : Note → NoteLevel
  | .boundMember _ _ | .boundStatic _ _ | .boundMethod _ _ _ | .boundIndexer _ _ => .trace
  | .parsed _ _ _ | .compiling _ _ => .debug
  | .replacing _ => .warn

def text : Note → String
  | .boundMember name typeName => s!"`{name}` bound to {typeName} member"
  | .boundStatic typeName name => s!"`{typeName}.{name}` bound to static member"
  | .boundMethod name types typeName => s!"`{name}({Ty.listed types})` bound on {typeName}"
  | .boundIndexer types typeName => s!"[{Ty.listed types}] bound on {typeName}"
  | .parsed formula printed ty => s!"parsed {Text.escaped formula} as {printed}: {ty.name}"
  | .compiling printed nodes => s!"compiling {printed} ({nodes} nodes)"
  | .replacing typeName => s!"replacing registered type {typeName}"

end Note
end TypedFormula
