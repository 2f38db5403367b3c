import TypedFormula.TypeInfo

namespace TypedFormula

structure Registry (σ : Type) where
  types : List (TypeInfo σ)

structure DuplicateType where
  name : String
deriving DecidableEq, Repr

def DuplicateType.message (d : DuplicateType) : String := s!"duplicate type: {d.name}"

namespace Registry

variable {σ : Type}

def empty : Registry σ := ⟨[]⟩

def get? (r : Registry σ) (name : String) : Option (TypeInfo σ) := r.types.find? (·.name == name)

def contains (r : Registry σ) (name : String) : Bool := r.types.any (·.name == name)

def size (r : Registry σ) : Nat := r.types.length

def insert (r : Registry σ) (info : TypeInfo σ) : Registry σ :=
  ⟨r.types.filter (·.name != info.name) ++ [info]⟩

def register (r : Registry σ) (info : TypeInfo σ) : Except DuplicateType (Registry σ) :=
  if r.contains info.name then .error ⟨info.name⟩ else .ok (r.insert info)

def ofTypes (types : List (TypeInfo σ)) : Registry σ := types.foldl insert empty

def described (r : Registry σ) : String :=
  let names := (r.types.map (·.name)).mergeSort (fun a b => decide (a ≤ b))
  "TypeRegistry \x7b types: [" ++ ", ".intercalate (names.map Text.escaped) ++ "] \x7d"

end Registry
end TypedFormula
