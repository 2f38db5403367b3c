import TypedFormula.Accessor

namespace TypedFormula.Host

abbrev Slots := List (String × Value)

namespace Slots

def get? (slots : Slots) (name : String) : Option Value :=
  (slots.find? (·.1 == name)).map (·.2)

def set (slots : Slots) (name : String) (value : Value) : Slots :=
  slots.filter (·.1 != name) ++ [(name, value)]

end Slots

-- What each object holds, by its identity. An object of a foreign kind holds no slots at all.
structure Store where
  payloads : Array (Option Slots)

namespace Store

def empty : Store := ⟨#[]⟩

def slots? (s : Store) (identity : Nat) : Option Slots := (s.payloads[identity]?).bind id

def setSlots (s : Store) (identity : Nat) (slots : Slots) : Store :=
  ⟨s.payloads.setIfInBounds identity (some slots)⟩

def allocate (s : Store) (typeName : String) (payload : Option Slots) : Object × Store :=
  (⟨typeName, s.payloads.size⟩, ⟨s.payloads.push payload⟩)

end Store

inductive Constant where
  | value (v : Value)
  | object (id : String)
deriving DecidableEq

-- The objects of a host under their ids, in the order in which they were made, and what they hold.
structure World where
  pool : List (String × Object)
  store : Store

namespace World

def empty : World := ⟨[], .empty⟩

def find? (w : World) (id : String) : Option Object :=
  (w.pool.reverse.find? (·.1 == id)).map (·.2)

def idOf? (w : World) (o : Object) : Option String :=
  (w.pool.find? (·.2.same o)).map (·.1)

def resolve (w : World) : Constant → Option Value
  | .value v => some v
  | .object id => (w.find? id).map .object

end World

structure ObjectSpec where
  id : String
  typeName : String
  slots : Option (List (String × Constant))

def World.add (w : World) (spec : ObjectSpec) : Option World := do
  let payload ← match spec.slots with
    | none => some none
    | some slots =>
      (slots.mapM fun slot => (w.resolve slot.2).map fun v => (slot.1, v)).map some
  let (o, store) := w.store.allocate spec.typeName payload
  some ⟨w.pool ++ [(spec.id, o)], store⟩

def World.addAll (w : World) (specs : List ObjectSpec) : Option World := specs.foldlM World.add w

end TypedFormula.Host
