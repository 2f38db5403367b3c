import TypedFormula.Value

namespace TypedFormula

structure HostError where
  message : String
deriving DecidableEq, Repr

-- An accessor at work on a host state of type `σ`. A failure keeps the state as it then is.
abbrev Access (σ : Type) := EStateM HostError σ

def Access.ofExcept {σ α : Type} : Except HostError α → Access σ α
  | .ok a => pure a
  | .error e => throw e

inductive MemberKind where
  | property
  | field
deriving DecidableEq, Repr

def MemberKind.label : MemberKind → String
  | .property => "Property"
  | .field => "Field"

-- A readable property or field. A static one takes no notice of its receiver.
structure Member (σ : Type) where
  name : String
  kind : MemberKind
  ty : Ty
  isStatic : Bool
  get : Value → Access σ Value

structure Method (σ : Type) where
  name : String
  params : List Ty
  result : Ty
  isStatic : Bool
  invoke : Value → List Value → Access σ Value

structure Indexer (σ : Type) where
  params : List Ty
  result : Ty
  get : Value → List Value → Access σ Value

variable {σ : Type}

def Member.described (m : Member σ) : String :=
  s!"Member \x7b name: {Text.escaped m.name}, kind: {m.kind.label}, ty: {m.ty.described}, " ++
    s!"is_static: {Value.boolText m.isStatic}, .. \x7d"

def Method.described (m : Method σ) : String :=
  s!"Method \x7b name: {Text.escaped m.name}, params: {Ty.describedList m.params}, " ++
    s!"ret: {m.result.described}, is_static: {Value.boolText m.isStatic}, .. \x7d"

def Indexer.described (ix : Indexer σ) : String :=
  s!"Indexer \x7b params: {Ty.describedList ix.params}, ret: {ix.result.described}, .. \x7d"

end TypedFormula
