import TypedFormula.TypeInfo
import TypedFormula.Proofs.LatestEntries

namespace TypedFormula

variable {σ : Type}

def Method.signature (m : Method σ) : String × List Ty := (m.name,m.params)

namespace Declaration

def member? (kind : MemberKind) (isStatic : Bool) : Declaration σ → Option (Member σ)
  | .member m => if m.kind = kind ∧ m.isStatic = isStatic then some m else none
  | _ => none

def method? (isStatic : Bool) : Declaration σ → Option (Method σ)
  | .method m => if m.isStatic = isStatic then some m else none
  | _ => none

def indexer? : Declaration σ → Option (Indexer σ)
  | .indexer ix => some ix
  | _ => none

theorem member?_eq_some {kind : MemberKind} {isStatic : Bool} {d : Declaration σ} {m : Member σ} :
    d.member? kind isStatic = some m ↔ d = .member m ∧ m.kind = kind ∧ m.isStatic = isStatic := by
  cases d with
  | member other =>
    simp only [member?,Option.ite_none_right_eq_some,Option.some.injEq,Declaration.member.injEq]
    constructor
    · rintro ⟨fits,rfl⟩
      exact ⟨rfl,fits⟩
    · rintro ⟨rfl,fits⟩
      exact ⟨fits,rfl⟩
  | method | indexer => simp [member?]

theorem method?_eq_some {isStatic : Bool} {d : Declaration σ} {m : Method σ} :
    d.method? isStatic = some m ↔ d = .method m ∧ m.isStatic = isStatic := by
  cases d with
  | method other =>
    simp only [method?,Option.ite_none_right_eq_some,Option.some.injEq,Declaration.method.injEq]
    constructor
    · rintro ⟨side,rfl⟩
      exact ⟨rfl,side⟩
    · rintro ⟨rfl,side⟩
      exact ⟨side,rfl⟩
  | member | indexer => simp [method?]

end Declaration

namespace MemberTable

def members (t : MemberTable σ) : MemberKind → List (Member σ)
  | .property => t.properties
  | .field => t.fields

theorem findMember_members (t : MemberTable σ) (name : String) : t.findMember name =
    ((t.members .property).find? (·.name == name)).or ((t.members .field).find? (·.name == name)) := rfl

@[simp] theorem members_putMember (t : MemberTable σ) (m : Member σ) (kind : MemberKind) :
    (t.putMember m).members kind =
      if m.kind = kind then Entries.replace Member.name (t.members kind) m else t.members kind := by
  unfold putMember
  cases m.kind <;> cases kind <;> rfl

@[simp] theorem methods_putMember (t : MemberTable σ) (m : Member σ) : (t.putMember m).methods = t.methods := by
  unfold putMember
  cases m.kind <;> rfl

@[simp] theorem members_putMethod (t : MemberTable σ) (m : Method σ) (kind : MemberKind) :
    (t.putMethod m).members kind = t.members kind := by
  cases kind <;> rfl

@[simp] theorem methods_putMethod (t : MemberTable σ) (m : Method σ) :
    (t.putMethod m).methods = Entries.replace Method.signature t.methods m := rfl

end MemberTable

namespace TypeInfo

inductive Query where
  | member (isStatic : Bool) (name : String)
  | method (isStatic : Bool) (name : String) (params : List Ty)
  | overloads (isStatic : Bool) (name : String)
  | indexer (params : List Ty)

inductive Answer (σ : Type) where
  | member (found : Option (Member σ))
  | method (found : Option (Method σ))
  | overloads (any : Bool)
  | indexer (found : Option (Indexer σ))

-- The declarations with the key of a query.
def Query.Concerns : Query → Declaration σ → Prop
  | .member isStatic name, .member m => m.isStatic = isStatic ∧ m.name = name
  | .method isStatic name params, .method m => m.isStatic = isStatic ∧ m.name = name ∧ m.params = params
  | .overloads isStatic name, .method m => m.isStatic = isStatic ∧ m.name = name
  | .indexer params, .indexer ix => ix.params = params
  | _, _ => False

variable (info : TypeInfo σ)

def answer : Query → Answer σ
  | .member isStatic name =>
    .member (if isStatic then info.findStaticMember name else info.findMember name)
  | .method isStatic name params =>
    .method (if isStatic then info.findStaticMethod name params else info.findMethod name params)
  | .overloads isStatic name => .overloads (info.hasMethod name isStatic)
  | .indexer params => .indexer (info.findIndexer params)

-- A description that answers from a history of declarations, the latest first.
structure Reflects (history : List (Declaration σ)) : Prop where
  methods : ∀ name params, info.findMethod name params =
    Entries.latest Method.signature (name,params) (history.filterMap (Declaration.method? false))
  staticMethods : ∀ name params, info.findStaticMethod name params =
    Entries.latest Method.signature (name,params) (history.filterMap (Declaration.method? true))
  indexers : ∀ params, info.findIndexer params =
    Entries.latest Indexer.params params (history.filterMap Declaration.indexer?)
  members : ∀ name, info.findMember name =
    (Entries.latest Member.name name (history.filterMap (Declaration.member? .property false))).or
      (Entries.latest Member.name name (history.filterMap (Declaration.member? .field false)))
  staticMembers : ∀ name, info.findStaticMember name =
    (Entries.latest Member.name name (history.filterMap (Declaration.member? .property true))).or
      (Entries.latest Member.name name (history.filterMap (Declaration.member? .field true)))
  overloads : ∀ name isStatic, info.hasMethod name isStatic = true ↔
    ∃ m, .method m ∈ history ∧ m.name = name ∧ m.isStatic = isStatic
  signatures : ∀ isStatic, ((info.table isStatic).methods.map Method.signature).Nodup
  parameters : (info.indexers.map Indexer.params).Nodup

variable {info}

@[simp] theorem table_setTable (isStatic other : Bool) (t : MemberTable σ) :
    (info.setTable isStatic t).table other = if other = isStatic then t else info.table other := by
  cases isStatic <;> cases other <;> rfl

@[simp] theorem indexers_setTable (isStatic : Bool) (t : MemberTable σ) :
    (info.setTable isStatic t).indexers = info.indexers := by
  cases isStatic <;> rfl

theorem declare_members (kind : MemberKind) (isStatic : Bool) (d : Declaration σ) :
    ((info.declare d).table isStatic).members kind = (d.member? kind isStatic).elim
      ((info.table isStatic).members kind) (Entries.replace Member.name ((info.table isStatic).members kind)) := by
  cases d with
  | member m =>
    by_cases side : m.isStatic = isStatic
    · subst side
      by_cases same : m.kind = kind <;> simp [declare,Declaration.member?,same]
    · simp [declare,Declaration.member?,side,Ne.symm side]
  | method m =>
    by_cases side : m.isStatic = isStatic
    · subst side
      simp [declare,Declaration.member?]
    · simp [declare,Declaration.member?,Ne.symm side]
  | indexer => rfl

theorem declare_methods (isStatic : Bool) (d : Declaration σ) :
    ((info.declare d).table isStatic).methods = (d.method? isStatic).elim
      (info.table isStatic).methods (Entries.replace Method.signature (info.table isStatic).methods) := by
  cases d with
  | method m =>
    by_cases side : m.isStatic = isStatic
    · subst side
      simp [declare,Declaration.method?]
    · simp [declare,Declaration.method?,side,Ne.symm side]
  | member m =>
    by_cases side : m.isStatic = isStatic
    · subst side
      simp [declare,Declaration.method?]
    · simp [declare,Declaration.method?,Ne.symm side]
  | indexer => rfl

theorem declare_indexers (d : Declaration σ) :
    (info.declare d).indexers = d.indexer?.elim info.indexers (Entries.replace Indexer.params info.indexers) := by
  cases d with
  | indexer ix => rfl
  | member | method => simp [declare,Declaration.indexer?]

theorem answer_member (isStatic : Bool) (name : String) :
    info.answer (.member isStatic name) = .member ((info.table isStatic).findMember name) := by
  cases isStatic <;> rfl

theorem answer_method (isStatic : Bool) (name : String) (params : List Ty) :
    info.answer (.method isStatic name params) = .method ((info.table isStatic).findMethod name params) := by
  cases isStatic <;> rfl

theorem declare_answer {d : Declaration σ} {query : Query} (other : ¬query.Concerns d) :
    (info.declare d).answer query = info.answer query := by
  cases query with
  | member isStatic name =>
    -- A declaration of another name leaves both kinds of members as they are looked up.
    have apart (kind : MemberKind) (m : Member σ) (declared : d.member? kind isStatic = some m) :
        ∀ old : Member σ, old.name = m.name → (old.name == name) = false := by
      obtain ⟨rfl,_,side⟩ := Declaration.member?_eq_some.mp declared
      exact fun old same => beq_false_of_ne fun named => other ⟨side,same.symm.trans named⟩
    have properties := Entries.find?_other Member.name ((info.table isStatic).members .property) _
      (apart .property)
    have fields := Entries.find?_other Member.name ((info.table isStatic).members .field) _
      (apart .field)
    rw [← declare_members] at properties fields
    simp only [answer_member,MemberTable.findMember_members,properties,fields]
  | method isStatic name params =>
    have kept := Entries.find?_other Method.signature (info.table isStatic).methods (d.method? isStatic)
      (p := (Method.signature · == (name,params))) fun m declared old same => by
        obtain ⟨rfl,side⟩ := Declaration.method?_eq_some.mp declared
        exact beq_false_of_ne fun equal => other
          ⟨side,congrArg Prod.fst (same.symm.trans equal),congrArg Prod.snd (same.symm.trans equal)⟩
    rw [← declare_methods] at kept
    simp only [answer_method]
    exact congrArg Answer.method kept
  | overloads isStatic name =>
    have kept := Entries.find?_other Method.signature (info.table isStatic).methods (d.method? isStatic)
      (p := (·.name == name)) fun m declared old same => by
        obtain ⟨rfl,side⟩ := Declaration.method?_eq_some.mp declared
        exact beq_false_of_ne fun named => other ⟨side,(congrArg Prod.fst same).symm.trans named⟩
    rw [← declare_methods] at kept
    simp only [answer,hasMethod,MemberTable.hasMethod,← List.isSome_find?,kept]
  | indexer params =>
    have kept := Entries.find?_other Indexer.params info.indexers d.indexer?
      (p := (·.params == params)) fun ix declared old same => by
        cases d with
        | indexer =>
          cases declared
          exact beq_false_of_ne fun taken => other (same.symm.trans taken)
        | member | method => cases declared
    rw [← declare_indexers] at kept
    simp only [answer,findIndexer,kept]

theorem name_ofDeclarations (name : String) (declarations : List (Declaration σ)) :
    (ofDeclarations name declarations).name = name := by
  have keeps : ∀ info : TypeInfo σ, (declarations.foldl declare info).name = info.name := by
    induction declarations with
    | nil => exact fun _ => rfl
    | cons d ds ih => exact fun info => (ih (info.declare d)).trans (declare_name info d)
  exact keeps (empty name)

variable (typeName : String) (history : List (Declaration σ))

theorem members_ofDeclarations (kind : MemberKind) (isStatic : Bool) :
    ((ofDeclarations typeName history).table isStatic).members kind =
      Entries.replaceAll Member.name [] (history.filterMap (Declaration.member? kind isStatic)) := by
  have none : ((empty typeName : TypeInfo σ).table isStatic).members kind = [] := by
    cases isStatic <;> cases kind <;> rfl
  rw [← none]
  exact Entries.part_foldl Member.name (fun info : TypeInfo σ => (info.table isStatic).members kind) _
    (fun info d => declare_members kind isStatic d) history _

theorem methods_ofDeclarations (isStatic : Bool) :
    ((ofDeclarations typeName history).table isStatic).methods =
      Entries.replaceAll Method.signature [] (history.filterMap (Declaration.method? isStatic)) := by
  have none : ((empty typeName : TypeInfo σ).table isStatic).methods = [] := by
    cases isStatic <;> rfl
  rw [← none]
  exact Entries.part_foldl Method.signature (fun info : TypeInfo σ => (info.table isStatic).methods) _
    (fun info d => declare_methods isStatic d) history _

theorem indexers_ofDeclarations :
    (ofDeclarations typeName history).indexers =
      Entries.replaceAll Indexer.params [] (history.filterMap Declaration.indexer?) :=
  Entries.part_foldl Indexer.params TypeInfo.indexers _ (fun _ d => declare_indexers d) history _

theorem findMember_ofDeclarations (isStatic : Bool) (name : String) :
    ((ofDeclarations typeName history).table isStatic).findMember name =
      (Entries.latest Member.name name (history.filterMap (Declaration.member? .property isStatic))).or
        (Entries.latest Member.name name (history.filterMap (Declaration.member? .field isStatic))) := by
  have properties := members_ofDeclarations typeName history .property isStatic
  have fields := members_ofDeclarations typeName history .field isStatic
  simp only [← Entries.find?_replaceAll,← properties,← fields]
  rfl

theorem findMethod_ofDeclarations (isStatic : Bool) (name : String) (params : List Ty) :
    ((ofDeclarations typeName history).table isStatic).findMethod name params =
      Entries.latest Method.signature (name,params) (history.filterMap (Declaration.method? isStatic)) := by
  simp only [← Entries.find?_replaceAll,← methods_ofDeclarations typeName]
  rfl

theorem findIndexer_ofDeclarations (params : List Ty) :
    (ofDeclarations typeName history).findIndexer params =
      Entries.latest Indexer.params params (history.filterMap Declaration.indexer?) := by
  simp only [← Entries.find?_replaceAll,← indexers_ofDeclarations typeName]
  rfl

-- An overload that was replaced leaves one of its name behind.
theorem hasMethod_ofDeclarations (isStatic : Bool) (name : String) :
    (ofDeclarations typeName history).hasMethod name isStatic = true ↔
      ∃ m, .method m ∈ history ∧ m.name = name ∧ m.isStatic = isStatic := by
  have signatures (params : List Ty) : (name,params) ∈
      ((ofDeclarations typeName history).table isStatic).methods.map Method.signature ↔
      (name,params) ∈ (history.filterMap (Declaration.method? isStatic)).map Method.signature := by
    simp only [methods_ofDeclarations,Entries.mem_keys_replaceAll,List.map_nil,List.not_mem_nil,false_or]
  simp only [List.mem_map,List.mem_filterMap,Declaration.method?_eq_some] at signatures
  simp only [hasMethod,MemberTable.hasMethod,List.any_eq_true,beq_iff_eq]
  constructor
  · rintro ⟨m,stored,rfl⟩
    obtain ⟨first,⟨_,declared,rfl,side⟩,same⟩ := (signatures m.params).mp ⟨m,stored,rfl⟩
    exact ⟨first,declared,congrArg Prod.fst same,side⟩
  · rintro ⟨m,declared,rfl,side⟩
    obtain ⟨last,stored,same⟩ := (signatures m.params).mpr ⟨m,⟨_,declared,rfl,side⟩,rfl⟩
    exact ⟨last,stored,congrArg Prod.fst same⟩

theorem ofDeclarations_reflects : (ofDeclarations typeName history).Reflects history where
  methods := findMethod_ofDeclarations typeName history false
  staticMethods := findMethod_ofDeclarations typeName history true
  indexers := findIndexer_ofDeclarations typeName history
  members := findMember_ofDeclarations typeName history false
  staticMembers := findMember_ofDeclarations typeName history true
  overloads name isStatic := hasMethod_ofDeclarations typeName history isStatic name
  signatures isStatic := by
    rw [methods_ofDeclarations]
    exact Entries.nodup_replaceAll Method.signature _
  parameters := by
    rw [indexers_ofDeclarations]
    exact Entries.nodup_replaceAll Indexer.params _

end TypeInfo
end TypedFormula
