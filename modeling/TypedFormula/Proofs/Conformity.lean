import TypedFormula.Builtins
import TypedFormula.Proofs.Outcomes

namespace TypedFormula

variable {σ : Type}

-- Whether an accessor of a type may be given the receiver. A static one may be given any.
def Admits (typeName : String) (isStatic : Bool) (receiver : Value) : Prop :=
  isStatic = true ∨ receiver.ty.name = typeName

def Member.Conforms (m : Member σ) (typeName : String) (isStatic : Bool) : Prop :=
  ∀ receiver state value after, Admits typeName isStatic receiver →
    m.get receiver state = .ok value after → value.ty = m.ty

def Method.Conforms (m : Method σ) (typeName : String) (isStatic : Bool) : Prop :=
  ∀ receiver args state value after, Admits typeName isStatic receiver → args.map Value.ty = m.params →
    m.invoke receiver args state = .ok value after → value.ty = m.result

def Indexer.Conforms (ix : Indexer σ) (typeName : String) : Prop :=
  ∀ receiver args state value after, Admits typeName false receiver → args.map Value.ty = ix.params →
    ix.get receiver args state = .ok value after → value.ty = ix.result

structure MemberTable.Conforms (t : MemberTable σ) (typeName : String) (isStatic : Bool) : Prop where
  members : ∀ m ∈ t.properties ++ t.fields, m.Conforms typeName isStatic
  methods : ∀ m ∈ t.methods, m.Conforms typeName isStatic

structure TypeInfo.Conforms (info : TypeInfo σ) : Prop where
  tables : ∀ isStatic, (info.table isStatic).Conforms info.name isStatic
  indexers : ∀ ix ∈ info.indexers, ix.Conforms info.name

def Registry.Conforming (registry : Registry σ) : Prop := ∀ info ∈ registry.types, info.Conforms

def Declaration.Conforms (typeName : String) : Declaration σ → Prop
  | .member m => m.Conforms typeName m.isStatic
  | .method m => m.Conforms typeName m.isStatic
  | .indexer ix => ix.Conforms typeName

namespace MemberTable

variable {t : MemberTable σ} {typeName : String} {isStatic : Bool}

theorem empty_conforms : (empty : MemberTable σ).Conforms typeName isStatic :=
  ⟨(fun _ none => by cases none),(fun _ none => by cases none)⟩

theorem putMember_conforms {m : Member σ} (conforms : t.Conforms typeName isStatic)
    (fits : m.Conforms typeName isStatic) : (t.putMember m).Conforms typeName isStatic := by
  refine ⟨fun other present => ?_,?_⟩
  · have old := conforms.members other
    unfold putMember at present
    cases kind : m.kind with
    | property =>
      simp only [kind,List.mem_append,List.mem_filter,List.mem_singleton] at present old
      rcases present with (⟨kept,_⟩ | rfl) | kept
      · exact old (.inl kept)
      · exact fits
      · exact old (.inr kept)
    | field =>
      simp only [kind,List.mem_append,List.mem_filter,List.mem_singleton] at present old
      rcases present with kept | ⟨kept,_⟩ | rfl
      · exact old (.inl kept)
      · exact old (.inr kept)
      · exact fits
  · unfold putMember
    cases m.kind <;> exact conforms.methods

theorem putMethod_conforms {m : Method σ} (conforms : t.Conforms typeName isStatic)
    (fits : m.Conforms typeName isStatic) : (t.putMethod m).Conforms typeName isStatic := by
  refine ⟨conforms.members,fun other present => ?_⟩
  rcases List.mem_append.mp present with kept | new
  · exact conforms.methods other (List.mem_filter.mp kept).1
  · cases List.mem_singleton.mp new
    exact fits

end MemberTable

namespace TypeInfo

theorem setTable_conforms {info : TypeInfo σ} {isStatic : Bool} {t : MemberTable σ}
    (conforms : info.Conforms) (fits : t.Conforms info.name isStatic) :
    (info.setTable isStatic t).Conforms := by
  have instances := conforms.tables false
  have statics := conforms.tables true
  cases isStatic
  · refine ⟨fun other => ?_,conforms.indexers⟩
    cases other
    · exact fits
    · exact statics
  · refine ⟨fun other => ?_,conforms.indexers⟩
    cases other
    · exact instances
    · exact fits

theorem declare_conforms {info : TypeInfo σ} {d : Declaration σ} (conforms : info.Conforms)
    (fits : d.Conforms info.name) : (info.declare d).Conforms := by
  cases d with
  | member m => exact setTable_conforms conforms (MemberTable.putMember_conforms (conforms.tables _) fits)
  | method m => exact setTable_conforms conforms (MemberTable.putMethod_conforms (conforms.tables _) fits)
  | indexer ix =>
    refine ⟨conforms.tables,fun other present => ?_⟩
    rcases List.mem_append.mp present with kept | new
    · exact conforms.indexers other (List.mem_filter.mp kept).1
    · cases List.mem_singleton.mp new
      exact fits

theorem declarations_conform {declarations : List (Declaration σ)} {info : TypeInfo σ}
    (conforms : info.Conforms) (fits : ∀ d ∈ declarations, d.Conforms info.name) :
    (declarations.foldl declare info).Conforms := by
  induction declarations generalizing info with
  | nil => exact conforms
  | cons d ds ih =>
    refine ih (declare_conforms conforms (fits d List.mem_cons_self)) fun other present => ?_
    rw [declare_name]
    exact fits other (List.mem_cons_of_mem _ present)

theorem ofDeclarations_conforms {name : String} {declarations : List (Declaration σ)}
    (fits : ∀ d ∈ declarations, d.Conforms name) : (ofDeclarations name declarations).Conforms := by
  refine declarations_conform ⟨fun isStatic => ?_,fun _ none => by cases none⟩ fits
  cases isStatic <;> exact MemberTable.empty_conforms

end TypeInfo

namespace Registry

theorem forall_insert {p : TypeInfo σ → Prop} {registry : Registry σ} {info : TypeInfo σ}
    (all : ∀ other ∈ registry.types, p other) (holds : p info) : ∀ other ∈ (registry.insert info).types, p other := by
  intro other present
  rcases List.mem_append.mp present with kept | new
  · exact all other (List.mem_filter.mp kept).1
  · cases List.mem_singleton.mp new
    exact holds

theorem forall_ofTypes {p : TypeInfo σ → Prop} {types : List (TypeInfo σ)} (all : ∀ info ∈ types, p info) :
    ∀ other ∈ (ofTypes types).types, p other := by
  have inserts : ∀ (types : List (TypeInfo σ)) (registry : Registry σ), (∀ other ∈ registry.types, p other) →
      (∀ info ∈ types, p info) → ∀ other ∈ (types.foldl insert registry).types, p other := by
    intro types
    induction types with
    | nil => exact fun _ before _ => before
    | cons info infos ih =>
      intro registry before all
      exact ih _ (forall_insert before (all info List.mem_cons_self))
        fun other present => all other (List.mem_cons_of_mem _ present)
  exact inserts types empty (fun _ none => (by cases none)) all

theorem get?_conforms {registry : Registry σ} (conforming : registry.Conforming) {name : String}
    {info : TypeInfo σ} (found : registry.get? name = some info) : info.Conforms :=
  conforming info (List.mem_of_find?_eq_some found)

end Registry
end TypedFormula
