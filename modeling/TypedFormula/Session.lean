import TypedFormula.Builtins
import TypedFormula.Engine
import TypedFormula.Host.Library

namespace TypedFormula

open Host

inductive Base where
  | empty
  | builtins
  | library
deriving DecidableEq, Repr

-- How formulas are parsed, until this is set anew.
structure Setting where
  limits : Limits := {}
  context : Option Object := none

structure StoredFormula where
  name : String
  text : String
  formula : CompiledFormula Store

structure Session where
  registry : Registry Store
  world : World
  setting : Setting
  stored : List StoredFormula
  notes : List Note

inductive Wanted where
  | member
  | staticMember
  | method
  | staticMethod
  | indexer
deriving DecidableEq, Repr

structure Lookup where
  typeName : String
  wanted : Wanted
  name : String
  params : List Ty

inductive Found where
  | noType
  | nothing
  | member (m : Member Store)
  | method (m : Method Store)
  | indexer (ix : Indexer Store)

inductive Command where
  | object (spec : ObjectSpec)
  | register (spec : TypeSpec)
  | insert (spec : TypeSpec)
  | parser (limits : Limits) (context : Option String)
  | context (id : Option String)
  | registry
  | contains (name : String)
  | methods (typeName name : String)
  | find (lookup : Lookup)
  | invoke (lookup : Lookup) (receiver : Constant) (args : List Constant)
  | set (id slot : String) (value : Constant)
  | parse (text : String)
  | evaluate (text : String)
  | value (text : String)
  -- With `detached` the compiled formula is given no context object.
  | compile (name text : String) (detached : Bool)
  | run (name : String) (context : Option String)
  | describe (values : List Constant)

-- A parsed formula: its tree, its printed form, and whether parsing that prints the same again.
structure ParseReport where
  expr : Expr Store
  printed : String
  reparsed : Except Fault Bool

inductive Reply where
  | done
  | duplicate (d : DuplicateType)
  | limits (limits : Limits)
  | context (typeName : Option String)
  | registry (registry : Registry Store)
  | contains (answer : Bool)
  | methods (info : Option (TypeInfo Store)) (name : String)
  | found (lookup : Lookup) (found : Found)
  | hostError (e : HostError)
  | parsed (report : ParseReport)
  | evaluated (ty : Ty) (value : Value)
  | value (value : Value)
  | compiled (formula : CompiledFormula Store)
  | fault (fault : Fault) (text : String) (ty : Option Ty)
  | values (values : List Value)
  -- The command names an object or a formula that is not there.
  | unknown

-- Why no session can start: a description names an object that is not there, or a type is described
-- twice.
inductive Refusal where
  | unknownObject
  | duplicate (d : DuplicateType)
deriving DecidableEq, Repr

def Refusal.ofOption {α : Type} : Option α → Except Refusal α
  | some a => .ok a
  | none => .error .unknownObject

namespace Session

def baseRegistry : Base → Registry Store
  | .empty => .empty
  | _ => Builtins.registry

def addType (w : World) (r : Registry Store) (spec : TypeSpec) :
    Except Refusal (Registry Store) := do
  let info ← Refusal.ofOption (spec.build w)
  match r.register info with
  | .ok next => .ok next
  | .error d => .error (.duplicate d)

def samples : Base → List ObjectSpec × List TypeSpec × Option String
  | .library => (Library.objects, Library.types, some Library.contextId)
  | _ => ([], [], none)

-- A session whose host has the objects and then the types of its base and of the two lists. The context
-- is named by its id; the sample library brings its own.
def start (base : Base) (objects : List ObjectSpec) (types : List TypeSpec)
    (context : Option (Option String)) (limits : Limits) : Except Refusal Session := do
  let (sampleObjects, sampleTypes, sampleContext) := samples base
  let sampleWorld ← Refusal.ofOption (World.empty.addAll sampleObjects)
  let sampleRegistry ← sampleTypes.foldlM (addType sampleWorld) (baseRegistry base)
  let world ← Refusal.ofOption (sampleWorld.addAll objects)
  let registry ← types.foldlM (addType world) sampleRegistry
  let context ← match context.getD sampleContext with
    | none => pure none
    | some id => Refusal.ofOption ((world.find? id).map some)
  .ok ⟨registry, world, { limits := limits, context := context }, [], []⟩

def note (s : Session) (notes : List Note) : Session := { s with notes := s.notes ++ notes }

def find (s : Session) (lookup : Lookup) : Found :=
  match s.registry.get? lookup.typeName with
  | none => .noType
  | some info =>
    let found : Option Found := match lookup.wanted with
      | .member => (info.findMember lookup.name).map .member
      | .staticMember => (info.findStaticMember lookup.name).map .member
      | .method => (info.findMethod lookup.name lookup.params).map .method
      | .staticMethod => (info.findStaticMethod lookup.name lookup.params).map .method
      | .indexer => (info.findIndexer lookup.params).map .indexer
    found.getD .nothing

def access (s : Session) (run : Access Store Value) : Reply × Session :=
  match run s.world.store with
  | .ok value store => (.value value, { s with world := { s.world with store := store } })
  | .error e store => (.hostError e, { s with world := { s.world with store := store } })

def evaluation (s : Session) (text : String) (ty : Option Ty) (answer : Value → Reply)
    (run : Evaluation Store Value) : Reply × Session :=
  match run s.world.store with
  | .ok value store => (answer value, { s with world := { s.world with store := store } })
  | .error fault store =>
    (.fault fault text ty, { s with world := { s.world with store := store } })

def parseText (s : Session) (text : String) : Except Fault (Expr Store) × List Note :=
  Engine.parse s.registry s.setting.context s.setting.limits text

def compileText (s : Session) (text : String) : Except Fault (CompiledFormula Store) × List Note :=
  Engine.compile s.registry s.setting.context s.setting.limits text

def report (s : Session) (text : String) : Reply × Session :=
  match s.parseText text with
  | (.error fault, notes) => (.fault fault text none, s.note notes)
  | (.ok e, notes) =>
    let printed := e.print
    let (again, more) := s.parseText printed
    (.parsed ⟨e, printed, again.map fun second => second.print == printed⟩, s.note (notes ++ more))

def evaluateText (s : Session) (text : String) : Reply × Session :=
  match s.compileText text with
  | (.error fault, notes) => (.fault fault text none, s.note notes)
  | (.ok compiled, notes) =>
    let ty := compiled.resultType
    (s.note notes).evaluation text (some ty) (.evaluated ty) compiled.evaluate

def valueOf (s : Session) (text : String) : Reply × Session :=
  let (outcome, notes, store) := Engine.getValue s.registry s.setting.context text s.world.store
  let after := { s.note notes with world := { s.world with store := store } }
  match outcome with
  | .ok value => (.value value, after)
  | .error fault => (.fault fault text none, after)

def keep (s : Session) (f : StoredFormula) : Session :=
  { s with stored := s.stored.filter (·.name != f.name) ++ [f] }

def compileAs (s : Session) (name text : String) (detached : Bool) : Reply × Session :=
  match s.parseText text with
  | (.error fault, notes) => (.fault fault text none, s.note notes)
  | (.ok e, notes) =>
    let (compiled, more) := Engine.ready e (if detached then none else s.setting.context)
    (.compiled compiled, (s.note (notes ++ more)).keep ⟨name, text, compiled⟩)

def runStored (s : Session) (name : String) (context : Option String) : Reply × Session :=
  match s.stored.find? (·.name == name) with
  | none => (.unknown, s)
  | some f =>
    match context with
    | none => s.evaluation f.text none .value f.formula.evaluate
    | some id =>
      match s.world.find? id with
      | none => (.unknown, s)
      | some o => s.evaluation f.text none .value (f.formula.evaluateWith o)

-- A change of the registry leaves formulas to be parsed in the usual setting.
def changeRegistry (s : Session) (registry : Registry Store) : Session :=
  { s with registry := registry, setting := {} }

def registerType (s : Session) (spec : TypeSpec) : Reply × Session :=
  match spec.build s.world with
  | none => (.unknown, s)
  | some info =>
    match s.registry.register info with
    | .ok registry => (.done, s.changeRegistry registry)
    | .error d => (.duplicate d, s.changeRegistry s.registry)

def insertType (s : Session) (spec : TypeSpec) : Reply × Session :=
  match spec.build s.world with
  | none => (.unknown, s)
  | some info =>
    let notes := if s.registry.contains info.name then [.replacing info.name] else []
    (.done, (s.note notes).changeRegistry (s.registry.insert info))

def setSlot (s : Session) (id slot : String) (constant : Constant) : Reply × Session :=
  match s.world.find? id, s.world.resolve constant with
  | some o, some value =>
    let slots := (s.world.store.slots? o.identity).getD []
    let store := s.world.store.setSlots o.identity (slots.set slot value)
    (.done, { s with world := { s.world with store := store } })
  | _, _ => (.unknown, s)

def invoke (s : Session) (lookup : Lookup) (receiver : Constant) (args : List Constant) :
    Reply × Session :=
  match s.world.resolve receiver, args.mapM s.world.resolve with
  | some receiver, some args =>
    match s.find lookup with
    | .member m => s.access (m.get receiver)
    | .method m => s.access (m.invoke receiver args)
    | .indexer ix => s.access (ix.get receiver args)
    | other => (.found lookup other, s)
  | _, _ => (.unknown, s)

def contextOf (s : Session) (id : Option String) : Option (Option Object) :=
  match id with
  | none => some none
  | some id => (s.world.find? id).map some

def step (s : Session) : Command → Reply × Session
  | .object spec =>
    match s.world.add spec with
    | some world => (.done, { s with world := world })
    | none => (.unknown, s)
  | .register spec => s.registerType spec
  | .insert spec => s.insertType spec
  | .parser limits id =>
    match s.contextOf id with
    | some context => (.limits limits, { s with setting := ⟨limits, context⟩ })
    | none => (.unknown, s)
  | .context id =>
    match s.contextOf id with
    | some context =>
      (.context (context.map (·.typeName)),
        { s with setting := { s.setting with context := context } })
    | none => (.unknown, s)
  | .registry => (.registry s.registry, s)
  | .contains name => (.contains (s.registry.contains name), s)
  | .methods typeName name => (.methods (s.registry.get? typeName) name, s)
  | .find lookup => (.found lookup (s.find lookup), s)
  | .invoke lookup receiver args => s.invoke lookup receiver args
  | .set id slot value => s.setSlot id slot value
  | .parse text => s.report text
  | .evaluate text => s.evaluateText text
  | .value text => s.valueOf text
  | .compile name text detached => s.compileAs name text detached
  | .run name context => s.runStored name context
  | .describe values =>
    match values.mapM s.world.resolve with
    | some values => (.values values, s)
    | none => (.unknown, s)

def steps (s : Session) : List Command → List Reply × Session
  | [] => ([], s)
  | command :: commands =>
    let (reply, next) := s.step command
    let (replies, last) := next.steps commands
    (reply :: replies, last)

end Session
end TypedFormula
