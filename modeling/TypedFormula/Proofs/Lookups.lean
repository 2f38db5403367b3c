import TypedFormula.Proofs.Outcomes

namespace TypedFormula

variable {σ : Type}

-- A step of binding succeeds with what was found, whatever notes there are, and fails if nothing was.
def Binding.Agrees {α : Type} (binding : Binding α) (found : Option α) : Prop :=
  ∀ notes a, (∃ more, binding notes = .ok a more) ↔ found = some a

namespace Binding

variable {α β : Type}

theorem agrees_pure (a : α) : Agrees (pure a) (some a) := by
  intro notes b
  simp only [pure_succeeds,Option.some.injEq]
  exact ⟨fun ⟨_,same,_⟩ => same,fun same => ⟨notes,same,rfl⟩⟩

theorem agrees_throw (fault : Fault) : Agrees (throw fault : Binding α) none := by
  intro notes b
  simp only [throw_succeeds,exists_false,reduceCtorEq]

theorem agrees_bind {first : Binding α} {next : α → Binding β} {found : Option α}
    {after : α → Option β} (one : Agrees first found) (two : ∀ a, Agrees (next a) (after a)) :
    Agrees (first >>= next) (found.bind after) := by
  intro notes b
  simp only [bind_succeeds,Option.bind_eq_some_iff]
  constructor
  · rintro ⟨more,a,middle,ran,finished⟩
    exact ⟨a,(one _ _).mp ⟨_,ran⟩,(two a _ _).mp ⟨_,finished⟩⟩
  · rintro ⟨a,here,there⟩
    obtain ⟨middle,ran⟩ := (one notes a).mpr here
    obtain ⟨more,finished⟩ := (two a middle b).mpr there
    exact ⟨more,a,middle,ran,finished⟩

theorem agrees_note {binding : Binding α} {found : Option α} (n : Note)
    (agrees : Agrees binding found) : Agrees (note n >>= fun _ => binding) found :=
  fun notes => agrees (n :: notes)

end Binding

namespace Scope

variable (scope : Scope σ)

def provider? : Receiver (Expr σ) → Option (TypeInfo σ)
  | .context => scope.context.bind scope.registry.get?
  | .type name => scope.registry.get? name
  | .value target => scope.registry.get? target.ty.name

def instanceMember? (target : Expr σ) (segment : Segment) : Option (Expr σ) :=
  ((scope.registry.get? target.ty.name).bind (·.findMember segment.text)).map fun m =>
    .member (.value target) m (target.span.union segment.span)

def instanceMembers? : Expr σ → List Segment → Option (Expr σ)
  | target, [] => some target
  | target, segment :: rest => (scope.instanceMember? target segment).bind (instanceMembers? · rest)

def staticMember? (info : TypeInfo σ) (type : DottedName) (segment : Segment) : Option (Expr σ) :=
  (info.findStaticMember segment.text).map fun m =>
    .member (.type type.text) m ⟨type.first.span.start,segment.span.stop⟩

def root? (name : DottedName) : Option (Expr σ × List Segment) :=
  match scope.contextMember? name.first.text with
  | some (_,m) => some (.member .context m name.first.span,name.others)
  | none =>
    match scope.longestType? name with
    | some (info,type,segment,rest) => (staticMember? info type segment).map (·,rest)
    | none => none

def members? (name : DottedName) (target : Option (Expr σ)) : Option (Expr σ) :=
  match target with
  | some target => scope.instanceMembers? target name.parts
  | none => (scope.root? name).bind fun found => scope.instanceMembers? found.1 found.2

def valueCallee? (target : Expr σ) (method : Segment) : Option (Callee σ) :=
  (scope.registry.get? target.ty.name).map fun info => ⟨.value target,info,method⟩

def contextCallee? (method : Segment) : Option (Callee σ) :=
  (scope.provider? .context).map fun info => ⟨.context,info,method⟩

def callee? (name : DottedName) (target : Option (Expr σ)) : Option (Callee σ) :=
  match name.splitLast?, target with
  | none, some target => scope.valueCallee? target name.first
  | none, none => scope.contextCallee? name.first
  | some (path,method), none =>
    match scope.registry.get? path.text with
    | some info => some ⟨.type path.text,info,method⟩
    | none => (scope.members? path none).bind (scope.valueCallee? · method)
  | some (path,method), some target =>
    (scope.members? path (some target)).bind (scope.valueCallee? · method)

theorem instanceMember_agrees (target : Expr σ) (segment : Segment) :
    Binding.Agrees (scope.instanceMember target segment) (scope.instanceMember? target segment) := by
  unfold instanceMember instanceMember?
  split
  · rename_i absent; rw [absent]; exact Binding.agrees_throw _
  · rename_i m found; rw [found]; exact Binding.agrees_note _ (Binding.agrees_pure _)

theorem instanceMembers_agrees (target : Expr σ) (segments : List Segment) :
    Binding.Agrees (scope.instanceMembers target segments) (scope.instanceMembers? target segments) := by
  induction segments generalizing target with
  | nil => exact Binding.agrees_pure _
  | cons segment rest ih => exact Binding.agrees_bind (scope.instanceMember_agrees target segment) ih

theorem staticMember_agrees (info : TypeInfo σ) (type : DottedName) (segment : Segment) :
    Binding.Agrees (staticMember info type segment) (staticMember? info type segment) := by
  unfold staticMember staticMember?
  split
  · rename_i absent; rw [absent]; exact Binding.agrees_throw _
  · rename_i m found; rw [found]; exact Binding.agrees_note _ (Binding.agrees_pure _)

theorem root_agrees (name : DottedName) : Binding.Agrees (scope.root name) (scope.root? name) := by
  unfold root root?
  cases scope.contextMember? name.first.text with
  | some found => exact Binding.agrees_note _ (Binding.agrees_pure _)
  | none =>
    cases scope.longestType? name with
    | none => exact Binding.agrees_throw _
    | some found =>
      dsimp only
      rw [Option.map_eq_bind]
      exact Binding.agrees_bind (staticMember_agrees found.1 found.2.1 found.2.2.1) fun e =>
        Binding.agrees_pure (e,found.2.2.2)

theorem members_agrees (name : DottedName) (target : Option (Expr σ)) :
    Binding.Agrees (scope.members name target) (scope.members? name target) := by
  unfold members members?
  split
  · exact scope.instanceMembers_agrees _ _
  · exact Binding.agrees_bind (scope.root_agrees name) fun found =>
      scope.instanceMembers_agrees found.1 found.2

theorem typeInfo_agrees (ty : Ty) (span : Span) :
    Binding.Agrees (scope.typeInfo ty span) (scope.registry.get? ty.name) := by
  unfold typeInfo
  split
  · rename_i info found; rw [found]; exact Binding.agrees_pure _
  · rename_i absent; rw [absent]; exact Binding.agrees_throw _

theorem contextInfo_agrees (span : Span) :
    Binding.Agrees (scope.contextInfo span) (scope.provider? (.context : Receiver (Expr σ))) := by
  unfold contextInfo provider?
  split
  · rename_i absent; rw [absent]; exact Binding.agrees_throw _
  · rename_i typeName bound
    rw [bound,Option.bind_some]
    split
    · rename_i info found; rw [found]; exact Binding.agrees_pure _
    · rename_i absent; rw [absent]; exact Binding.agrees_throw _

theorem valueCallee_agrees (target : Expr σ) (method : Segment) :
    Binding.Agrees (scope.valueCallee target method) (scope.valueCallee? target method) := by
  unfold valueCallee valueCallee?
  rw [Option.map_eq_bind]
  exact Binding.agrees_bind (scope.typeInfo_agrees _ _) fun info => Binding.agrees_pure _

theorem callee_agrees (name : DottedName) (target : Option (Expr σ)) :
    Binding.Agrees (scope.callee name target) (scope.callee? name target) := by
  unfold callee callee?
  cases name.splitLast? with
  | none =>
    cases target with
    | some target => exact scope.valueCallee_agrees _ _
    | none =>
      unfold contextCallee?
      rw [Option.map_eq_bind]
      exact Binding.agrees_bind (scope.contextInfo_agrees _) fun info => Binding.agrees_pure _
  | some cut =>
    cases target with
    | some target =>
      exact Binding.agrees_bind (scope.members_agrees _ _) fun e => scope.valueCallee_agrees e _
    | none =>
      dsimp only
      cases scope.registry.get? cut.1.text with
      | some info => exact Binding.agrees_pure _
      | none =>
        exact Binding.agrees_bind (scope.members_agrees _ _) fun e => scope.valueCallee_agrees e _

def call? (callee : Callee σ) (args : List (Expr σ)) (span closing : Span) : Option (Expr σ) :=
  (findOverload callee (args.map Expr.ty)).map fun m =>
    .call callee.receiver m args ((startOf callee.receiver span).union closing)

def index? (receiver : Receiver (Expr σ)) (info : TypeInfo σ) (args : List (Expr σ))
    (span closing : Span) : Option (Expr σ) :=
  (info.findIndexer (args.map Expr.ty)).map fun ix =>
    .index receiver ix args ((startOf receiver span).union closing)

theorem call_agrees (callee : Callee σ) (args : List (Expr σ)) (span closing : Span) :
    Binding.Agrees (call callee args span closing) (call? callee args span closing) := by
  unfold call call?
  dsimp only
  split
  · rename_i m found; rw [found]; exact Binding.agrees_note _ (Binding.agrees_pure _)
  · rename_i absent; rw [absent]; exact Binding.agrees_throw _

theorem index_agrees (receiver : Receiver (Expr σ)) (info : TypeInfo σ) (args : List (Expr σ))
    (span opening closing : Span) :
    Binding.Agrees (index receiver info args span opening closing)
      (index? receiver info args span closing) := by
  unfold index index?
  dsimp only
  split
  · rename_i ix found; rw [found]; exact Binding.agrees_note _ (Binding.agrees_pure _)
  · rename_i absent; rw [absent]; exact Binding.agrees_throw _

def indexed? (target : Option (Expr σ)) : Option (Receiver (Expr σ) × TypeInfo σ) :=
  let receiver : Receiver (Expr σ) := match target with
    | some target => .value target
    | none => .context
  (scope.provider? receiver).map (receiver,·)

theorem indexed_agrees (target : Option (Expr σ)) (span : Span) :
    Binding.Agrees (scope.indexed target span) (scope.indexed? target) := by
  unfold indexed indexed?
  cases target with
  | some target =>
    rw [Option.map_eq_bind]
    exact Binding.agrees_bind (scope.typeInfo_agrees _ _) fun info => Binding.agrees_pure _
  | none =>
    rw [Option.map_eq_bind]
    exact Binding.agrees_bind (scope.contextInfo_agrees _) fun info => Binding.agrees_pure _

end Scope

def bindUnary? (op : UnaryOp) (opSpan : Span) (operand : Expr σ) : Option (Expr σ) :=
  (op.resultType operand.ty).map fun ty => .unary op operand ty (opSpan.union operand.span)

def bindBinary? (op : BinaryOp) (left right : Expr σ) : Option (Expr σ) :=
  (op.resultType left.ty right.ty).map fun ty => .binary op left right ty (left.span.union right.span)

theorem bindUnary_agrees (op : UnaryOp) (opSpan : Span) (operand : Expr σ) :
    Binding.Agrees (bindUnary op opSpan operand) (bindUnary? op opSpan operand) := by
  unfold bindUnary bindUnary?
  split
  · rename_i ty typed; rw [typed]; exact Binding.agrees_pure _
  · rename_i untyped; rw [untyped]; exact Binding.agrees_throw _

theorem bindBinary_agrees (op : BinaryOp) (opSpan : Span) (left right : Expr σ) :
    Binding.Agrees (bindBinary op opSpan left right) (bindBinary? op left right) := by
  unfold bindBinary bindBinary?
  split
  · rename_i ty typed; rw [typed]; exact Binding.agrees_pure _
  · rename_i untyped; rw [untyped]; exact Binding.agrees_throw _

end TypedFormula
