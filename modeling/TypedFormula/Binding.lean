import TypedFormula.DottedName
import TypedFormula.Expr
import TypedFormula.Fault
import TypedFormula.Note
import TypedFormula.Registry

namespace TypedFormula

-- What names are looked up in: the registered types, and the type of the context object if there is one.
structure Scope (σ : Type) where
  registry : Registry σ
  context : Option String

-- Binding leaves notes, the latest first, and keeps those made before a fault.
abbrev Binding := EStateM Fault (List Note)

def Binding.note (n : Note) : Binding Unit := modify (n :: ·)

namespace Scope

variable {σ : Type}

def contextInfo (scope : Scope σ) (span : Span) : Binding (TypeInfo σ) :=
  match scope.context with
  | none => throw ⟨.contextMissing, span⟩
  | some typeName =>
    match scope.registry.get? typeName with
    | some info => pure info
    | none => throw ⟨.contextNotRegistered typeName, span⟩

def typeInfo (scope : Scope σ) (ty : Ty) (span : Span) : Binding (TypeInfo σ) :=
  match scope.registry.get? ty.name with
  | some info => pure info
  | none => throw ⟨.typeNotRegistered ty.name, span⟩

def contextMember? (scope : Scope σ) (name : String) : Option (String × Member σ) := do
  let typeName ← scope.context
  let info ← scope.registry.get? typeName
  let m ← info.findMember name
  some (typeName, m)

def instanceMember (scope : Scope σ) (target : Expr σ) (segment : Segment) :
    Binding (Expr σ) :=
  match (scope.registry.get? target.ty.name).bind (·.findMember segment.text) with
  | none => throw ⟨.noMember target.ty.name segment.text, segment.span⟩
  | some m => do
    .note (.boundMember segment.text target.ty.name)
    pure (.member (.value target) m (target.span.union segment.span))

-- A static member of a type. The type has the longest fitting name, and there is no second try with a
-- shorter one.
def staticMember (info : TypeInfo σ) (type : DottedName) (segment : Segment) :
    Binding (Expr σ) :=
  match info.findStaticMember segment.text with
  | none => throw ⟨.noStaticMember type.text segment.text, segment.span⟩
  | some m => do
    .note (.boundStatic type.text segment.text)
    pure (.member (.type type.text) m ⟨type.first.span.start, segment.span.stop⟩)

def unresolved (scope : Scope σ) (first : Segment) (alone : Bool) : Fault :=
  match scope.context with
  | some typeName => ⟨.neitherMemberNorType first.text typeName, first.span⟩
  | none =>
    if alone then ⟨.nameWithoutContext first.text, first.span⟩
    else ⟨.unknownType first.text, first.span⟩

-- The longest beginning of a dotted name that is a registered type, with the parts that follow it.
def longestType? (scope : Scope σ) (name : DottedName) :
    Option (TypeInfo σ × DottedName × Segment × List Segment) :=
  (DottedName.cuts name.first name.others).findSome? fun (type, member, rest) =>
    (scope.registry.get? type.text).map fun info => (info, type, member, rest)

-- The beginning of a name that follows no other expression, and the parts left over.
def root (scope : Scope σ) (name : DottedName) : Binding (Expr σ × List Segment) :=
  match scope.contextMember? name.first.text with
  | some (typeName, m) => do
    .note (.boundMember name.first.text typeName)
    pure (.member .context m name.first.span, name.others)
  | none =>
    match scope.longestType? name with
    | some (info, type, segment, rest) => do
      pure (← staticMember info type segment, rest)
    | none => throw (scope.unresolved name.first name.others.isEmpty)

def instanceMembers (scope : Scope σ) : Expr σ → List Segment → Binding (Expr σ)
  | target, [] => pure target
  | target, segment :: rest => do
    instanceMembers scope (← scope.instanceMember target segment) rest

def members (scope : Scope σ) (name : DottedName) (target : Option (Expr σ)) :
    Binding (Expr σ) :=
  match target with
  | some target => scope.instanceMembers target name.parts
  | none => do
    let (e, rest) ← scope.root name
    scope.instanceMembers e rest

structure Callee (σ : Type) where
  receiver : Receiver (Expr σ)
  info : TypeInfo σ
  method : Segment

def valueCallee (scope : Scope σ) (target : Expr σ) (method : Segment) : Binding (Callee σ) := do
  let info ← scope.typeInfo target.ty target.span
  pure ⟨.value target, info, method⟩

-- The part of a name before its last dot is a type, or else a chain of members. A name without a dot
-- is a method of the target or of the context.
def callee (scope : Scope σ) (name : DottedName) (target : Option (Expr σ)) :
    Binding (Callee σ) := do
  match name.splitLast?, target with
  | none, some target => scope.valueCallee target name.first
  | none, none => pure ⟨.context, ← scope.contextInfo name.first.span, name.first⟩
  | some (path, method), none =>
    match scope.registry.get? path.text with
    | some info => pure ⟨.type path.text, info, method⟩
    | none => do scope.valueCallee (← scope.members path none) method
  | some (path, method), some target => do
    scope.valueCallee (← scope.members path (some target)) method

def Callee.isStatic (callee : Callee σ) : Bool :=
  match callee.receiver with
  | .type _ => true
  | _ => false

-- Where an access starts in the formula: with its receiver if that is a value.
def startOf (receiver : Receiver (Expr σ)) (span : Span) : Span :=
  match receiver with
  | .value target => target.span
  | _ => span

def findOverload (callee : Callee σ) (types : List Ty) : Option (Method σ) :=
  if callee.isStatic then callee.info.findStaticMethod callee.method.text types
  else callee.info.findMethod callee.method.text types

def call (callee : Callee σ) (args : List (Expr σ)) (span closing : Span) : Binding (Expr σ) := do
  let types := args.map Expr.ty
  match findOverload callee types with
  | some m => do
    .note (.boundMethod callee.method.text types callee.info.name)
    pure (.call callee.receiver m args ((startOf callee.receiver span).union closing))
  | none =>
    let name := callee.method.text
    let cause :=
      if callee.info.hasMethod name callee.isStatic then .noOverload callee.info.name name types
      else .noMethod callee.info.name callee.isStatic name types
    throw ⟨cause, callee.method.span⟩

-- What an indexer belongs to: the target or the context.
def indexed (scope : Scope σ) (target : Option (Expr σ)) (span : Span) :
    Binding (Receiver (Expr σ) × TypeInfo σ) := do
  match target with
  | some target => pure (.value target, ← scope.typeInfo target.ty target.span)
  | none => pure (.context, ← scope.contextInfo span)

def index (receiver : Receiver (Expr σ)) (info : TypeInfo σ) (args : List (Expr σ))
    (span opening closing : Span) : Binding (Expr σ) := do
  let types := args.map Expr.ty
  match info.findIndexer types with
  | some ix => do
    .note (.boundIndexer types info.name)
    pure (.index receiver ix args ((startOf receiver span).union closing))
  | none => throw ⟨.noIndexer info.name types, opening.union closing⟩

end Scope

-- An operator applied to operands of known types; a mismatch is blamed on the operator alone.
def bindUnary {σ : Type} (op : UnaryOp) (opSpan : Span) (operand : Expr σ) : Binding (Expr σ) :=
  match op.resultType operand.ty with
  | some ty => pure (.unary op operand ty (opSpan.union operand.span))
  | none => throw ⟨.unaryMismatch op operand.ty, opSpan⟩

def bindBinary {σ : Type} (op : BinaryOp) (opSpan : Span) (left right : Expr σ) :
    Binding (Expr σ) :=
  match op.resultType left.ty right.ty with
  | some ty => pure (.binary op left right ty (left.span.union right.span))
  | none => throw ⟨.binaryMismatch op left.ty right.ty, opSpan⟩

end TypedFormula
