import TypedFormula.Accessor

namespace TypedFormula.Builtins

def fail {α : Type} (message : String) : Except HostError α := .error ⟨message⟩

def textReceiver : Value → Except HostError String
  | .text s => .ok s
  | other => fail s!"expected a string receiver, found {other.ty.name}"

def textArg (args : List Value) (i : Nat) : Except HostError String :=
  match args[i]? with
  | some (.text s) => .ok s
  | _ => fail s!"argument {i} must be a string"

def intArg (args : List Value) (i : Nat) : Except HostError Int32 :=
  match args[i]? with
  | some (.int n) => .ok n
  | _ => fail s!"argument {i} must be an int"

def doubleArg (args : List Value) (i : Nat) : Except HostError Float :=
  match args[i]? with
  | some (.double x) => .ok x
  | _ => fail s!"argument {i} must be a double"

def decimalArg (args : List Value) (i : Nat) : Except HostError Decimal :=
  match args[i]? with
  | some (.decimal d) => .ok d
  | _ => fail s!"argument {i} must be a decimal"

end TypedFormula.Builtins
