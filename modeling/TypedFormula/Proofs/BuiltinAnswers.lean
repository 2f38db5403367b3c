import TypedFormula.Builtins
import TypedFormula.Proofs.Declarations

namespace TypedFormula

variable {σ : Type}

namespace Entries

variable {α κ : Type} [BEq κ] [LawfulBEq κ] (key : α → κ)

theorem latest_of_mem {history : List α} (apart : (history.map key).Nodup) {x : α} (present : x ∈ history) :
    latest key (key x) history = some x := by
  obtain ⟨front,back,rfl⟩ := List.append_of_mem present
  rw [List.map_append,List.map_cons,List.nodup_middle,List.nodup_cons,List.mem_append,not_or] at apart
  have others : ∀ ys : List α, key x ∉ ys.map key → ys.filter (key · == key x) = [] := by
    intro ys absent
    rw [List.filter_eq_nil_iff]
    exact fun y isIn same => absent (List.mem_map.mpr ⟨y,isIn,eq_of_beq same⟩)
  simp [latest,others front apart.1.1,others back apart.1.2]

end Entries

namespace Registry

variable (r : Registry σ)

def property? (receiver : Value) (name : String) : Option (Access σ Value) :=
  ((r.get? receiver.ty.name).bind (·.findMember name)).map fun m => m.get receiver

def method? (receiver : Value) (name : String) (args : List Value) : Option (Access σ Value) :=
  ((r.get? receiver.ty.name).bind (·.findMethod name (args.map Value.ty))).map fun m => m.invoke receiver args

def indexer? (receiver : Value) (args : List Value) : Option (Access σ Value) :=
  ((r.get? receiver.ty.name).bind (·.findIndexer (args.map Value.ty))).map fun ix => ix.get receiver args

def staticMethod? (typeName name : String) (args : List Value) : Option (Access σ Value) :=
  ((r.get? typeName).bind (·.findStaticMethod name (args.map Value.ty))).map fun m => m.invoke .unit args

theorem get?_ofTypes (types : List (TypeInfo σ)) (name : String) :
    (ofTypes types).get? name = Entries.latest TypeInfo.name name types := by
  have step (r : Registry σ) (info : TypeInfo σ) : (r.insert info).types =
      (some info).elim r.types (Entries.replace TypeInfo.name r.types) := rfl
  have entries := Entries.part_foldl TypeInfo.name Registry.types some step types empty
  rw [List.filterMap_some] at entries
  rw [get?,← Entries.find?_replaceAll]
  exact congrArg (List.find? _) entries

variable {r} {info : TypeInfo σ} {typeName name : String} (receiver : Value) (args : List Value)

theorem property?_found (known : r.get? receiver.ty.name = some info) {m : Member σ}
    (found : info.findMember name = some m) : r.property? receiver name = some (m.get receiver) := by
  rw [property?,known,Option.bind_some,found,Option.map_some]

theorem method?_found (known : r.get? receiver.ty.name = some info) {m : Method σ}
    (found : info.findMethod name (args.map Value.ty) = some m) :
    r.method? receiver name args = some (m.invoke receiver args) := by
  rw [method?,known,Option.bind_some,found,Option.map_some]

theorem indexer?_found (known : r.get? receiver.ty.name = some info) {ix : Indexer σ}
    (found : info.findIndexer (args.map Value.ty) = some ix) :
    r.indexer? receiver args = some (ix.get receiver args) := by
  rw [indexer?,known,Option.bind_some,found,Option.map_some]

theorem staticMethod?_found (known : r.get? typeName = some info) {m : Method σ}
    (found : info.findStaticMethod name (args.map Value.ty) = some m) :
    r.staticMethod? typeName name args = some (m.invoke .unit args) := by
  rw [staticMethod?,known,Option.bind_some,found,Option.map_some]

end Registry

-- An accessor that is there and gives a value, and leaves the host in the state that it found.
def ComesTo (state : σ) (found : Option (Access σ Value)) (value : Value) : Prop :=
  ∃ run, found = some run ∧ run state = .ok value state

theorem comesTo_ofExcept {state : σ} {result : Except HostError Value} {value : Value} :
    ComesTo state (some (.ofExcept result)) value ↔ result = .ok value := by
  constructor
  · rintro ⟨_,⟨⟩,ran⟩
    cases result with
    | ok given =>
      cases ran
      rfl
    | error => cases ran
  · rintro rfl
    exact ⟨_,rfl,rfl⟩

namespace Builtins

theorem names_apart : ((types : List (TypeInfo σ)).map TypeInfo.name).Nodup := by
  simp only [types,List.map_cons,List.map_nil,boolType,intType,floatType,doubleType,decimalType,stringType,mathType,
    TypeInfo.name_ofDeclarations]
  decide

theorem get?_declared {typeName : String} {declarations : List (Declaration σ)}
    (builtin : .ofDeclarations typeName declarations ∈ (types : List (TypeInfo σ))) :
    registry.get? typeName = some (.ofDeclarations typeName declarations) := by
  have found := Entries.latest_of_mem TypeInfo.name names_apart builtin
  rwa [TypeInfo.name_ofDeclarations,← Registry.get?_ofTypes] at found

end Builtins
end TypedFormula
