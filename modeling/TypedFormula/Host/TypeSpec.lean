import TypedFormula.Host.Body
import TypedFormula.Registry

namespace TypedFormula.Host

inductive MemberForm where
  -- On an object that holds slots.
  | property
  | field
  | method
  | indexer
  -- On any value.
  | valueProperty
  | valueMethod
  | valueIndexer
  -- On the type itself.
  | staticProperty
  | staticField
  | staticMethod
deriving DecidableEq, Repr

def MemberForm.takesAnyValue : MemberForm → Bool
  | .valueProperty | .valueMethod | .valueIndexer => true
  | _ => false

structure MemberSpec where
  form : MemberForm
  name : String
  params : List Ty
  ty : Ty
  body : Body Constant

structure TypeSpec where
  name : String
  members : List MemberSpec

-- Runs an accessor that cannot report a failure: it yields the unit value instead.
def swallowing (run : Access Store Value) : Access Store Value := fun s =>
  match run s with
  | .ok value after => .ok value after
  | .error _ after => .ok .unit after

-- The object with slots that a receiver is; anything else is no receiver for a member of `typeName`.
def slotHolder (typeName : String) (receiver : Value) : Access Store Object := do
  match receiver with
  | .object o =>
    if ((← get).slots? o.identity).isSome then pure o
    else Body.failWith s!"receiver is not a {typeName}"
  | _ => Body.failWith s!"receiver is not a {typeName}"

-- A body on a receiver that has to be an object with slots. The body does not see it as a value.
def onHolder (typeName : String) (receiver : Value)
    (run : Frame → Access Store Value) (args : List Value) : Access Store Value := do
  let o ← slotHolder typeName receiver
  run ⟨.unit, some o, args⟩

def holderOf : Value → Option Object
  | .object o => some o
  | _ => none

def onValue (receiver : Value) (run : Frame → Access Store Value) (args : List Value) :
    Access Store Value := run ⟨receiver, holderOf receiver, args⟩

def onType (run : Frame → Access Store Value) (args : List Value) : Access Store Value :=
  run ⟨.unit, none, args⟩

def fixedValue (store : Store) (body : Body Value) : Value :=
  match swallowing (onType body.run []) store with
  | .ok value _ => value
  | .error _ _ => .unit

namespace MemberSpec

variable (typeName : String) (store : Store) (spec : MemberSpec)

def declaration (body : Body Value) : Declaration Store :=
  match spec.form with
  | .property =>
    .member ⟨spec.name, .property, spec.ty, false,
      fun receiver => onHolder typeName receiver (fun frame => swallowing (body.run frame)) []⟩
  | .field =>
    .member ⟨spec.name, .field, spec.ty, false,
      fun receiver => onHolder typeName receiver (fun frame => swallowing (body.run frame)) []⟩
  | .method =>
    .method ⟨spec.name, spec.params, spec.ty, false,
      fun receiver args => onHolder typeName receiver body.run args⟩
  | .indexer =>
    .indexer ⟨spec.params, spec.ty,
      fun receiver args => onHolder typeName receiver body.run args⟩
  | .valueProperty =>
    .valueProperty spec.name spec.ty fun receiver => onValue receiver body.run []
  | .valueMethod =>
    .valueMethod spec.name spec.params spec.ty fun receiver args => onValue receiver body.run args
  | .valueIndexer =>
    .valueIndexer spec.params spec.ty fun receiver args => onValue receiver body.run args
  | .staticProperty => .staticProperty spec.name spec.ty (swallowing (onType body.run []))
  | .staticField => .staticField spec.name spec.ty (fixedValue store body)
  | .staticMethod =>
    .staticMethod spec.name spec.params spec.ty fun args => onType body.run args

end MemberSpec

-- The type, with the members that take any value declared after all others. There is none if the
-- description refers to an object that is not there.
def TypeSpec.build (w : World) (spec : TypeSpec) : Option (TypeInfo Store) := do
  let (late, early) := spec.members.partition (·.form.takesAnyValue)
  let declarations ← (early ++ late).mapM fun m =>
    (m.body.resolve w).map (m.declaration spec.name w.store)
  some (.ofDeclarations spec.name declarations)

end TypedFormula.Host
