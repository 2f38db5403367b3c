import TypedFormula.Accessor

namespace TypedFormula

structure MemberTable (σ : Type) where
  properties : List (Member σ)
  fields : List (Member σ)
  methods : List (Method σ)

structure TypeInfo (σ : Type) where
  name : String
  instanceTable : MemberTable σ
  staticTable : MemberTable σ
  indexers : List (Indexer σ)

variable {σ : Type}

namespace MemberTable

def empty : MemberTable σ := ⟨[], [], []⟩

-- A property hides a field of the same name.
def findMember (t : MemberTable σ) (name : String) : Option (Member σ) :=
  (t.properties.find? (·.name == name)).or (t.fields.find? (·.name == name))

def findMethod (t : MemberTable σ) (name : String) (params : List Ty) : Option (Method σ) :=
  t.methods.find? fun m => m.name == name && m.params == params

def hasMethod (t : MemberTable σ) (name : String) : Bool := t.methods.any (·.name == name)

def putMember (t : MemberTable σ) (m : Member σ) : MemberTable σ :=
  match m.kind with
  | .property => { t with properties := t.properties.filter (·.name != m.name) ++ [m] }
  | .field => { t with fields := t.fields.filter (·.name != m.name) ++ [m] }

def putMethod (t : MemberTable σ) (m : Method σ) : MemberTable σ :=
  { t with
    methods := t.methods.filter (fun old => !(old.name == m.name && old.params == m.params)) ++ [m] }

end MemberTable

inductive Declaration (σ : Type) where
  | member (m : Member σ)
  | method (m : Method σ)
  | indexer (ix : Indexer σ)

namespace Declaration

def staticProperty (name : String) (ty : Ty) (get : Access σ Value) : Declaration σ :=
  .member ⟨name, .property, ty, true, fun _ => get⟩

def staticField (name : String) (ty : Ty) (value : Value) : Declaration σ :=
  .member ⟨name, .field, ty, true, fun _ => pure value⟩

def staticMethod (name : String) (params : List Ty) (result : Ty)
    (invoke : List Value → Access σ Value) : Declaration σ :=
  .method ⟨name, params, result, true, fun _ args => invoke args⟩

-- The receiver of the following three is any value at all.
def valueProperty (name : String) (ty : Ty) (get : Value → Access σ Value) : Declaration σ :=
  .member ⟨name, .property, ty, false, get⟩

def valueMethod (name : String) (params : List Ty) (result : Ty)
    (invoke : Value → List Value → Access σ Value) : Declaration σ :=
  .method ⟨name, params, result, false, invoke⟩

def valueIndexer (params : List Ty) (result : Ty)
    (get : Value → List Value → Access σ Value) : Declaration σ :=
  .indexer ⟨params, result, get⟩

end Declaration

namespace TypeInfo

def empty (name : String) : TypeInfo σ := ⟨name, .empty, .empty, []⟩

def table (info : TypeInfo σ) (isStatic : Bool) : MemberTable σ :=
  if isStatic then info.staticTable else info.instanceTable

def setTable (info : TypeInfo σ) (isStatic : Bool) (t : MemberTable σ) : TypeInfo σ :=
  if isStatic then { info with staticTable := t } else { info with instanceTable := t }

def findMember (info : TypeInfo σ) (name : String) : Option (Member σ) :=
  info.instanceTable.findMember name

def findStaticMember (info : TypeInfo σ) (name : String) : Option (Member σ) :=
  info.staticTable.findMember name

def findMethod (info : TypeInfo σ) (name : String) (params : List Ty) : Option (Method σ) :=
  info.instanceTable.findMethod name params

def findStaticMethod (info : TypeInfo σ) (name : String) (params : List Ty) : Option (Method σ) :=
  info.staticTable.findMethod name params

def hasMethod (info : TypeInfo σ) (name : String) (isStatic : Bool) : Bool :=
  (info.table isStatic).hasMethod name

def findIndexer (info : TypeInfo σ) (params : List Ty) : Option (Indexer σ) :=
  info.indexers.find? (·.params == params)

def declare (info : TypeInfo σ) : Declaration σ → TypeInfo σ
  | .member m => info.setTable m.isStatic ((info.table m.isStatic).putMember m)
  | .method m => info.setTable m.isStatic ((info.table m.isStatic).putMethod m)
  | .indexer ix =>
    { info with indexers := info.indexers.filter (·.params != ix.params) ++ [ix] }

def ofDeclarations (name : String) (declarations : List (Declaration σ)) : TypeInfo σ :=
  declarations.foldl declare (empty name)

def described (info : TypeInfo σ) : String :=
  s!"TypeInfo \x7b name: {Text.escaped info.name}, .. \x7d"

theorem declare_name (info : TypeInfo σ) (d : Declaration σ) : (info.declare d).name = info.name := by
  cases d <;> simp only [declare,setTable] <;> (try split) <;> rfl

end TypeInfo
end TypedFormula
