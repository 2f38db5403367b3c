import TypedFormula.Builtins
import TypedFormula.Proofs.NameFronts
import TypedFormula.Proofs.Placement

namespace TypedFormula

open Text

variable {σ : Type}

namespace Scope

variable (scope : Scope σ)

def HasContextMember (name : String) (m : Member σ) : Prop :=
  ∃ typeName info, scope.context = some typeName ∧ scope.registry.get? typeName = some info ∧
    info.findMember name = some m

def HasMember (x : Expr σ) (name : String) (m : Member σ) : Prop :=
  ∃ info, scope.registry.get? x.ty.name = some info ∧ info.findMember name = some m

-- A name that starts with a name of a type and goes on behind it.
def Begins (segments : List Segment) (type : DottedName) (rest : List Segment) : Prop :=
  segments = type.parts ++ rest ∧ rest ≠ []

-- The longest registered type that a name starts with, and the parts behind it.
structure LongestType (segments : List Segment) (type : DottedName) (rest : List Segment) (info : TypeInfo σ) : Prop where
  begins : Begins segments type rest
  registered : scope.registry.get? type.text = some info
  longest : ∀ longer others, Begins segments longer others → type.parts.length < longer.parts.length →
    scope.registry.get? longer.text = none

inductive Walks : Expr σ → List Segment → Expr σ → Prop where
  | stays {x} : Walks x [] x
  | member {x segment rest m e} (has : scope.HasMember x segment.text m)
      (others : Walks (.member (.value x) m (x.span.union segment.span)) rest e) : Walks x (segment :: rest) e

-- Where a name starts: the tree, and the parts left over.
inductive Starts : Option (Expr σ) → List Segment → Expr σ → List Segment → Prop where
  | target {x segments} : Starts (some x) segments x segments
  | context {first rest m} (has : scope.HasContextMember first.text m) :
      Starts none (first :: rest) (.member .context m first.span) rest
  | type {first others type segment rest info m} (noMember : ∀ m, ¬scope.HasContextMember first.text m)
      (longest : scope.LongestType (first :: others) type (segment :: rest) info)
      (found : info.findStaticMember segment.text = some m) :
      Starts none (first :: others) (.member (.type type.text) m ⟨first.span.start,segment.span.stop⟩) rest

def Denotes (target : Option (Expr σ)) (segments : List Segment) (e : Expr σ) : Prop :=
  ∃ x rest, scope.Starts target segments x rest ∧ scope.Walks x rest e

-- Why a name gets stuck at a part, with the parts in front of it and behind it. Whatever is in front of that
-- part is a type or denotes a tree.
inductive Stuck : Option (Expr σ) → List Segment → Segment → List Segment → Cause → Prop where
  | unknown {segment back} (noMember : ∀ m, ¬scope.HasContextMember segment.text m)
      (noType : ∀ type rest, Begins (segment :: back) type rest → scope.registry.get? type.text = none) :
      Stuck none [] segment back (scope.unresolved segment back.isEmpty).cause
  | static {type segment back info} (noMember : ∀ m, ¬scope.HasContextMember type.first.text m)
      (longest : scope.LongestType (type.parts ++ segment :: back) type (segment :: back) info)
      (absent : info.findStaticMember segment.text = none) :
      Stuck none type.parts segment back (.noStaticMember type.text segment.text)
  | member {target front segment back x between y} (starts : scope.Starts target (front ++ segment :: back) x
      (between ++ segment :: back)) (walks : scope.Walks x between y) (absent : ∀ m, ¬scope.HasMember y segment.text m) :
      Stuck target front segment back (.noMember y.ty.name segment.text)

variable {scope}

theorem hasContextMember_iff {name : String} {m : Member σ} :
    scope.HasContextMember name m ↔ ∃ typeName, scope.contextMember? name = some (typeName,m) := by
  unfold HasContextMember contextMember?
  simp only [Option.bind_eq_bind,Option.bind_eq_some_iff,Option.some.injEq,Prod.mk.injEq]
  constructor
  · rintro ⟨typeName,info,bound,registered,found⟩
    exact ⟨typeName,typeName,bound,info,registered,m,found,rfl,rfl⟩
  · rintro ⟨_,typeName,bound,info,registered,_,found,_,rfl⟩
    exact ⟨typeName,info,bound,registered,found⟩

theorem noContextMember_iff {name : String} :
    (∀ m, ¬scope.HasContextMember name m) ↔ scope.contextMember? name = none := by
  simp only [hasContextMember_iff,not_exists]
  rw [Option.eq_none_iff_forall_ne_some]
  exact ⟨fun none (typeName,m) => none m typeName,fun none m typeName => none (typeName,m)⟩

theorem hasMember_iff {x : Expr σ} {name : String} {m : Member σ} : scope.HasMember x name m ↔
    (scope.registry.get? x.ty.name).bind (·.findMember name) = some m :=
  Option.bind_eq_some_iff.symm

theorem noMember_iff {x : Expr σ} {name : String} : (∀ m, ¬scope.HasMember x name m) ↔
    (scope.registry.get? x.ty.name).bind (·.findMember name) = none := by
  simp only [hasMember_iff]
  exact Option.eq_none_iff_forall_ne_some.symm

end Scope

namespace DottedName

theorem mem_cuts_iff {first : Segment} {others : List Segment} {name : DottedName} {member : Segment}
    {tail : List Segment} :
    (name,member,tail) ∈ cuts first others ↔ first :: others = name.parts ++ member :: tail := by
  refine ⟨mem_cuts,fun split => ?_⟩
  obtain ⟨rfl,same⟩ := List.cons.inj split
  obtain ⟨longer,shorter,cut,_⟩ := cuts_at name.first name.others member tail
  change others = name.others ++ member :: tail at same
  rw [same,cut]
  exact List.mem_append_right _ List.mem_cons_self

theorem cuts_sorted (first : Segment) (others : List Segment) :
    (cuts first others).Pairwise fun one two => two.1.parts.length < one.1.parts.length := by
  induction others generalizing first with
  | nil => exact .nil
  | cons second rest ih =>
    rw [cuts,List.pairwise_append]
    refine ⟨?_,List.pairwise_singleton _ _,?_⟩
    · rw [List.pairwise_map]
      exact (ih second).imp Nat.succ_lt_succ
    · intro one longer two last
      obtain ⟨cut,_,rfl⟩ := List.mem_map.mp longer
      cases List.mem_singleton.mp last
      exact Nat.succ_lt_succ (Nat.succ_pos _)

end DottedName

namespace Scope

variable {scope : Scope σ} {name : DottedName}

theorem longestType_found {type : DottedName} {segment : Segment} {rest : List Segment} {info : TypeInfo σ}
    (found : scope.longestType? name = some (info,type,segment,rest)) :
    scope.LongestType name.parts type (segment :: rest) info := by
  rw [longestType_eq] at found
  obtain ⟨before,cut,after,split,here,none⟩ := List.findSome?_eq_some_iff.mp found
  obtain ⟨_,registered,same⟩ := Option.map_eq_some_iff.mp here
  cases same
  have present : (type,segment,rest) ∈ DottedName.cuts name.first name.others := by
    rw [split]
    exact List.mem_append_right _ List.mem_cons_self
  refine ⟨⟨DottedName.mem_cuts present,List.cons_ne_nil _ _⟩,registered,?_⟩
  rintro longer others ⟨whole,filled⟩ less
  obtain ⟨member,tail,rfl⟩ := List.exists_cons_of_ne_nil filled
  have inside := DottedName.mem_cuts_iff.mpr whole
  have sorted := DottedName.cuts_sorted name.first name.others
  rw [split] at inside sorted
  rcases List.mem_append.mp inside with first | later
  · exact Option.map_eq_none_iff.mp (none _ first)
  · have behind := (List.pairwise_cons.mp (List.pairwise_append.mp sorted).2.1).1
    rcases List.mem_cons.mp later with same | further
    · cases same
      exact absurd less (Nat.lt_irrefl _)
    · exact absurd less (Nat.lt_asymm (behind _ further))

theorem longestType_missing (missing : scope.longestType? name = none) (type : DottedName) (rest : List Segment)
    (begins : Begins name.parts type rest) : scope.registry.get? type.text = none := by
  obtain ⟨whole,filled⟩ := begins
  obtain ⟨member,tail,rfl⟩ := List.exists_cons_of_ne_nil filled
  rw [longestType_eq,List.findSome?_eq_none_iff] at missing
  exact Option.map_eq_none_iff.mp (missing _ (DottedName.mem_cuts_iff.mpr whole))

theorem LongestType.found {type : DottedName} {segment : Segment} {rest : List Segment} {info : TypeInfo σ}
    (longest : scope.LongestType name.parts type (segment :: rest) info) :
    scope.longestType? name = some (info,type,segment,rest) := by
  obtain ⟨begins,registered,none⟩ := longest
  cases found : scope.longestType? name with
  | none => cases registered.symm.trans (longestType_missing found type _ begins)
  | some cut =>
    obtain ⟨info',type',segment',rest'⟩ := cut
    obtain ⟨begins',registered',none'⟩ := longestType_found found
    -- Neither type is longer than the other, so both are the same beginning of the name.
    have length : type.parts.length = type'.parts.length := by
      rcases Nat.lt_trichotomy type.parts.length type'.parts.length with less | same | more
      · cases registered'.symm.trans (none _ _ begins' less)
      · exact same
      · cases registered.symm.trans (none' _ _ begins more)
    obtain ⟨parts,behind⟩ := List.append_inj (begins.1.symm.trans begins'.1) length
    obtain ⟨first,others⟩ := List.cons.inj parts
    have same : type = type' := by
      cases type
      cases type'
      cases first
      cases others
      rfl
    cases same
    cases behind
    cases registered.symm.trans registered'
    rfl

theorem LongestType.unfound (noType : ∀ type rest, Begins name.parts type rest →
    scope.registry.get? type.text = none) : scope.longestType? name = none := by
  cases found : scope.longestType? name with
  | none => rfl
  | some cut =>
    obtain ⟨begins,registered,_⟩ := longestType_found found
    cases registered.symm.trans (noType _ _ begins)

end Scope

namespace Binding

variable {α β : Type}

def Refuses (binding : Binding α) (fault : Fault) : Prop := ∀ notes, ∃ more, binding notes = .error fault more

def Gives (binding : Binding α) (a : α) : Prop := ∀ notes, ∃ more, binding notes = .ok a more

theorem gives_pure (a : α) : Gives (pure a) a := fun notes => ⟨notes,rfl⟩

theorem gives_note (n : Note) : Gives (note n) () := fun notes => ⟨n :: notes,rfl⟩

theorem refuses_throw (fault : Fault) : Refuses (throw fault : Binding α) fault := fun notes => ⟨notes,rfl⟩

theorem Gives.bind {first : Binding α} {next : α → Binding β} {a : α} {b : β} (gives : Gives first a)
    (after : Gives (next a) b) : Gives (first >>= next) b := by
  intro notes
  obtain ⟨middle,ran⟩ := gives notes
  rw [bind_run,ran]
  exact after middle

theorem Gives.refuses {first : Binding α} {next : α → Binding β} {a : α} {fault : Fault} (gives : Gives first a)
    (after : Refuses (next a) fault) : Refuses (first >>= next) fault := by
  intro notes
  obtain ⟨middle,ran⟩ := gives notes
  rw [bind_run,ran]
  exact after middle

theorem Refuses.bind {first : Binding α} {fault : Fault} (refuses : Refuses first fault) (next : α → Binding β) :
    Refuses (first >>= next) fault := by
  intro notes
  obtain ⟨middle,ran⟩ := refuses notes
  rw [bind_run,ran]
  exact ⟨middle,rfl⟩

end Binding

namespace Scope

open Binding

variable {scope : Scope σ} {x y e : Expr σ} {segment : Segment} {segments rest : List Segment}

theorem instanceMember_gives {m : Member σ} (has : scope.HasMember x segment.text m) :
    Gives (scope.instanceMember x segment) (.member (.value x) m (x.span.union segment.span)) := by
  unfold instanceMember
  rw [hasMember_iff.mp has]
  exact (gives_note _).bind (gives_pure _)

theorem instanceMember_refuses (absent : ∀ m, ¬scope.HasMember x segment.text m) :
    Refuses (scope.instanceMember x segment) ⟨.noMember x.ty.name segment.text,segment.span⟩ := by
  unfold instanceMember
  rw [noMember_iff.mp absent]
  exact refuses_throw _

theorem Walks.gives (walks : scope.Walks x segments e) : Gives (scope.instanceMembers x segments) e := by
  induction walks with
  | stays => exact gives_pure _
  | member has _ ih => exact (instanceMember_gives has).bind ih

theorem Walks.refuses (walks : scope.Walks x segments y) (absent : ∀ m, ¬scope.HasMember y segment.text m) :
    Refuses (scope.instanceMembers x (segments ++ segment :: rest))
      ⟨.noMember y.ty.name segment.text,segment.span⟩ := by
  induction walks with
  | stays => exact (instanceMember_refuses absent).bind _
  | member has _ ih => exact (instanceMember_gives has).refuses (ih absent)

theorem walks_or_stuck (scope : Scope σ) (x : Expr σ) (segments : List Segment) : (∃ e, scope.Walks x segments e) ∨
    ∃ between segment back y, segments = between ++ segment :: back ∧ scope.Walks x between y ∧
      ∀ m, ¬scope.HasMember y segment.text m := by
  induction segments generalizing x with
  | nil => exact .inl ⟨x,.stays⟩
  | cons segment rest ih =>
    by_cases has : ∃ m, scope.HasMember x segment.text m
    · obtain ⟨m,has⟩ := has
      rcases ih (.member (.value x) m (x.span.union segment.span)) with ⟨e,walks⟩ | ⟨between,other,back,y,rfl,walks,absent⟩
      · exact .inl ⟨e,.member has walks⟩
      · exact .inr ⟨segment :: between,other,back,y,rfl,.member has walks,absent⟩
    · exact .inr ⟨[],segment,rest,x,rfl,.stays,not_exists.mp has⟩

theorem staticMember_gives {info : TypeInfo σ} {type : DottedName} {m : Member σ}
    (found : info.findStaticMember segment.text = some m) :
    Gives (staticMember info type segment) (.member (.type type.text) m ⟨type.first.span.start,segment.span.stop⟩) := by
  unfold staticMember
  rw [found]
  exact (gives_note _).bind (gives_pure _)

theorem staticMember_refuses {info : TypeInfo σ} {type : DottedName} (absent : info.findStaticMember segment.text = none) :
    Refuses (staticMember info type segment) ⟨.noStaticMember type.text segment.text,segment.span⟩ := by
  unfold staticMember
  rw [absent]
  exact refuses_throw _

variable {name : DottedName} {target : Option (Expr σ)}

theorem Starts.of_target (starts : scope.Starts (some y) segments x rest) : x = y ∧ rest = segments := by
  cases starts
  exact ⟨rfl,rfl⟩

theorem Starts.root_gives (starts : scope.Starts none name.parts x rest) : Gives (scope.root name) (x,rest) := by
  obtain ⟨first,others⟩ := name
  cases starts with
  | context has =>
    obtain ⟨typeName,found⟩ := hasContextMember_iff.mp has
    unfold root
    rw [found]
    exact (gives_note _).bind (gives_pure _)
  | type noMember longest found =>
    have same : first = _ := (List.cons.inj longest.begins.1).1
    have searched : scope.longestType? ⟨first,others⟩ = some _ := LongestType.found longest
    unfold root
    rw [noContextMember_iff.mp noMember]
    dsimp only
    rw [searched,same]
    exact (staticMember_gives found).bind (gives_pure _)

theorem Denotes.gives (denotes : scope.Denotes target name.parts e) : Gives (scope.members name target) e := by
  obtain ⟨x,rest,starts,walks⟩ := denotes
  cases target with
  | some x =>
    cases starts
    exact walks.gives
  | none => exact starts.root_gives.bind walks.gives

theorem Stuck.refuses {front back : List Segment} {cause : Cause} (stuck : scope.Stuck target front segment back cause)
    (parts : name.parts = front ++ segment :: back) : Refuses (scope.members name target) ⟨cause,segment.span⟩ := by
  cases stuck with
  | unknown noMember noType =>
    obtain ⟨rfl,rfl⟩ := List.cons.inj parts
    have span : (scope.unresolved name.first name.others.isEmpty).span = name.first.span := by
      unfold unresolved
      split
      · rfl
      · split <;> rfl
    refine Refuses.bind ?_ _
    unfold root
    rw [noContextMember_iff.mp noMember]
    dsimp only
    rw [LongestType.unfound noType,← span]
    exact refuses_throw _
  | @static type _ _ info noMember longest absent =>
    have same : name.first = type.first := (List.cons.inj parts).1
    rw [← parts] at longest
    rw [← same] at noMember
    refine Refuses.bind ?_ _
    unfold root
    rw [noContextMember_iff.mp noMember]
    dsimp only
    rw [longest.found]
    exact (staticMember_refuses absent).bind _
  | member starts walks absent =>
    rw [← parts] at starts
    cases target with
    | some x =>
      obtain ⟨rfl,same⟩ := starts.of_target
      unfold members
      dsimp only
      rw [← same]
      exact walks.refuses absent
    | none => exact starts.root_gives.refuses (walks.refuses absent)

theorem Starts.parts (starts : scope.Starts target segments x rest) : ∃ front, segments = front ++ rest := by
  cases starts with
  | target => exact ⟨[],rfl⟩
  | context => exact ⟨[_],rfl⟩
  | @type _ _ type segment _ _ _ _ longest =>
    exact ⟨type.parts ++ [segment],by rw [longest.begins.1,List.append_assoc,List.singleton_append]⟩

theorem Starts.denotes_or_stuck (starts : scope.Starts target segments x rest) :
    (∃ e, scope.Denotes target segments e) ∨ ∃ front segment back cause, segments = front ++ segment :: back ∧
      scope.Stuck target front segment back cause := by
  rcases walks_or_stuck scope x rest with ⟨e,walks⟩ | ⟨between,segment,back,y,rfl,walks,absent⟩
  · exact .inl ⟨e,x,rest,starts,walks⟩
  · obtain ⟨front,split⟩ := starts.parts
    rw [← List.append_assoc] at split
    subst split
    exact .inr ⟨front ++ between,segment,back,_,rfl,.member starts walks absent⟩

theorem denotes_or_stuck (scope : Scope σ) (name : DottedName) (target : Option (Expr σ)) :
    (∃ e, scope.Denotes target name.parts e) ∨ ∃ front segment back cause, name.parts = front ++ segment :: back ∧
      scope.Stuck target front segment back cause := by
  cases target with
  | some x => exact Starts.target.denotes_or_stuck
  | none =>
    by_cases has : ∃ m, scope.HasContextMember name.first.text m
    · obtain ⟨m,has⟩ := has
      exact (Starts.context has).denotes_or_stuck
    have noMember := not_exists.mp has
    cases found : scope.longestType? name with
    | none => exact .inr ⟨[],name.first,name.others,_,rfl,.unknown noMember (longestType_missing found)⟩
    | some cut =>
      obtain ⟨info,type,segment,rest⟩ := cut
      have longest := longestType_found found
      cases static : info.findStaticMember segment.text with
      | some m => exact (Starts.type noMember longest static).denotes_or_stuck
      | none =>
        have same : name.first = type.first := (List.cons.inj longest.begins.1).1
        have parts := longest.begins.1
        rw [same] at noMember
        rw [parts] at longest
        exact .inr ⟨type.parts,segment,rest,_,parts,.static noMember longest static⟩

theorem denotes_iff_not_stuck : (∃ e, scope.Denotes target name.parts e) ↔
    ¬∃ front segment back cause, name.parts = front ++ segment :: back ∧
      scope.Stuck target front segment back cause := by
  constructor
  · rintro ⟨e,denotes⟩ ⟨front,segment,back,cause,parts,stuck⟩
    obtain ⟨_,given⟩ := denotes.gives []
    obtain ⟨_,refused⟩ := stuck.refuses parts []
    cases given.symm.trans refused
  · exact (denotes_or_stuck scope name target).resolve_right

theorem Begins.length {type : DottedName} (begins : Begins segments type rest) : 1 < segments.length := by
  obtain ⟨rfl,filled⟩ := begins
  have := List.length_pos_iff.mpr filled
  rw [List.length_append,DottedName.parts,List.length_cons]
  omega

theorem Starts.context_of_one (starts : scope.Starts none segments x rest) (one : segments.length = 1) :
    scope.context ≠ none := by
  cases starts with
  | context has =>
    obtain ⟨typeName,_,bound,_⟩ := has
    rw [bound]
    exact Option.some_ne_none _
  | type _ longest => exact absurd one (Nat.ne_of_gt longest.begins.length)

-- Only a name of one part can lack a context.
theorem Stuck.kind {front back : List Segment} {cause : Cause} (stuck : scope.Stuck target front segment back cause) :
    cause.kind = if target.isNone ∧ (front ++ segment :: back).length = 1 ∧ scope.context = none then .noContext
      else .notFound := by
  cases stuck with
  | unknown =>
    unfold unresolved
    cases scope.context with
    | some typeName => simp [Cause.kind]
    | none => cases back <;> simp [Cause.kind]
  | static _ longest => rw [if_neg fun lone => Nat.ne_of_gt longest.begins.length lone.2.1]; rfl
  | member starts =>
    rw [if_neg]
    · rfl
    · rintro ⟨none,one,missing⟩
      rw [Option.isNone_iff_eq_none.mp none] at starts
      exact starts.context_of_one one missing

end Scope

namespace Parser

open Scope

variable {scope : Scope σ} {limits : Limits} {inner : Inner σ} {spelling : String} {span : Span}
  {target : Option (Expr σ)} {s : ParseState} {next : Token} {rest : List (Except Fault Token)}

theorem named_run (ahead : s.rest = .ok next :: rest) (uncalled : next.kind ≠ .leftParen) :
    named scope limits inner spelling span target s =
      match scope.members (.ofText spelling span.start) target s.notes with
      | .error fault notes => .error fault ⟨next,rest,notes⟩
      | .ok e notes => if next.kind = .leftBracket then indexer scope limits inner (some e) span ⟨next,rest,notes⟩
        else .ok e ⟨next,rest,notes⟩ := by
  obtain ⟨current,left,notes⟩ := s
  obtain rfl : left = .ok next :: rest := ahead
  by_cases opens : next.kind = .leftBracket
  · obtain ⟨_,place⟩ := next
    cases opens
    have indexed : named scope limits inner spelling span target ⟨current,.ok ⟨.leftBracket,place⟩ :: rest,notes⟩ =
        (do
          let e ← Parse.bind (scope.members (.ofText spelling span.start) target)
          indexer scope limits inner (some e) span) ⟨⟨.leftBracket,place⟩,rest,notes⟩ := rfl
    rw [indexed,bind_run,Parse.bind]
    cases scope.members (.ofText spelling span.start) target notes with
    | ok e more => exact (if_pos rfl).symm
    | error fault more => rfl
  · have alone : named scope limits inner spelling span target ⟨current,.ok next :: rest,notes⟩ =
        Parse.bind (scope.members (.ofText spelling span.start) target) ⟨next,rest,notes⟩ := by
      obtain ⟨kind,place⟩ := next
      cases kind <;> first | rfl | contradiction
    rw [alone,Parse.bind]
    cases scope.members (.ofText spelling span.start) target notes with
    | ok e more => exact (if_neg opens).symm
    | error fault more => rfl

-- A name that is not called denotes a tree, and is bound to it, or gets stuck at one of its parts, and that
-- part is blamed where it stands in the formula: nothing was found, or there is no context for it to be in.
theorem name_resolved (scope : Scope σ) (limits : Limits) (inner : Inner σ) (target : Option (Expr σ)) {text : String}
    {token next : Token} {spelling : String} {rest : List (Except Fault Token)} (read : .ok token ∈ Lexer.readings text)
    (is : token.kind = .name spelling) {s : ParseState} (ahead : s.rest = .ok next :: rest)
    (uncalled : next.kind ≠ .leftParen) :
    let name := DottedName.ofText spelling token.span.start
    -- The parts are what is between the dots, one behind the other in the bytes of the name.
    (name.texts = pieces spelling ∧ Row Segment.span token.span.start name.parts token.span.stop ∧
      ∀ segment ∈ name.parts, Between text.toList segment.span.start segment.span.stop segment.text.toList) ∧
    (∀ e, scope.Denotes target name.parts e → ∃ notes, named scope limits inner spelling token.span target s =
      if next.kind = .leftBracket then indexer scope limits inner (some e) token.span ⟨next,rest,notes⟩
      else .ok e ⟨next,rest,notes⟩) ∧
    (∀ front segment back cause, name.parts = front ++ segment :: back →
      scope.Stuck target front segment back cause →
      (∃ notes, named scope limits inner spelling token.span target s =
        .error ⟨cause,segment.span⟩ ⟨next,rest,notes⟩) ∧
      cause.kind = if target.isNone ∧ name.parts.length = 1 ∧ scope.context = none then .noContext else .notFound) ∧
    ((∃ e, scope.Denotes target name.parts e) ↔ ¬∃ front segment back cause,
      name.parts = front ++ segment :: back ∧ scope.Stuck target front segment back cause) := by
  intro name
  have lies : token.LiesIn text.toList := Lexer.readings_lie text _ read
  have ran : named scope limits inner spelling token.span target s = _ := named_run ahead uncalled
  refine ⟨⟨DottedName.texts_ofText _ _,?_,lies.part is⟩,?_,?_,denotes_iff_not_stuck⟩
  · have row := (DottedName.ofText_row spelling token.span.start).1
    obtain ⟨_,_,stops⟩ := (lies.named spelling is).2
    rw [← stops] at row
    exact row
  · intro e denotes
    obtain ⟨notes,given⟩ := denotes.gives s.notes
    refine ⟨notes,?_⟩
    rw [ran,given]
  · intro front segment back cause parts stuck
    obtain ⟨notes,refused⟩ := stuck.refuses parts s.notes
    refine ⟨⟨notes,by rw [ran,refused]⟩,?_⟩
    rw [parts]
    exact stuck.kind

theorem read_of_tokenize {text : String} {tokens : List Token} {token : Token} (tokenized : Lexer.tokenize text = .ok tokens)
    (present : token ∈ tokens) : .ok token ∈ Lexer.readings text := by
  rw [Lexer.mapM_id_ok_iff.mp tokenized]
  exact List.mem_map_of_mem present

theorem names_resolved :
    let names : Scope Unit := ⟨Builtins.registry,none⟩
    (∃ e notes, named names {} none "Length" ⟨5,11⟩ (some (.literal (.text "é") ⟨0,4⟩))
      ⟨⟨.name "Length",⟨5,11⟩⟩,[.ok ⟨.ending,⟨11,11⟩⟩],[]⟩ = .ok e ⟨⟨.ending,⟨11,11⟩⟩,[],notes⟩) ∧
    ∃ notes, named names {} none "Math.Größe" ⟨4,16⟩ none ⟨⟨.name "Math.Größe",⟨4,16⟩⟩,[.ok ⟨.ending,⟨16,16⟩⟩],[]⟩ =
      .error ⟨.noStaticMember "Math" "Größe",⟨9,16⟩⟩ ⟨⟨.ending,⟨16,16⟩⟩,[],notes⟩ := by
  intro names
  constructor
  · let word : Expr Unit := .literal (.text "é") ⟨0,4⟩
    have tokenized : Lexer.tokenize "\"é\".Length" =
        .ok [⟨.text "é",⟨0,4⟩⟩,⟨.dot,⟨4,5⟩⟩,⟨.name "Length",⟨5,11⟩⟩,⟨.ending,⟨11,11⟩⟩] := by decide +kernel
    have member : ((names.registry.get? "string").bind (·.findMember "Length")).isSome = true := by decide +kernel
    obtain ⟨m,found⟩ := Option.isSome_iff_exists.mp member
    have denotes : names.Denotes (some word) [⟨"Length",⟨5,11⟩⟩] (.member (.value word) m ⟨0,11⟩) :=
      ⟨word,_,.target,.member (hasMember_iff.mpr found) .stays⟩
    have read : .ok ⟨.name "Length",⟨5,11⟩⟩ ∈ Lexer.readings "\"é\".Length" := read_of_tokenize tokenized (by simp)
    obtain ⟨_,gives,_,_⟩ := name_resolved names {} none (some word) read rfl
      (s := ⟨⟨.name "Length",⟨5,11⟩⟩,[.ok ⟨.ending,⟨11,11⟩⟩],[]⟩) rfl (by decide)
    obtain ⟨notes,ran⟩ := gives _ denotes
    exact ⟨_,notes,ran⟩
  · have tokenized : Lexer.tokenize "1 + Math.Größe" =
        .ok [⟨.int 1,⟨0,1⟩⟩,⟨.plus,⟨2,3⟩⟩,⟨.name "Math.Größe",⟨4,16⟩⟩,⟨.ending,⟨16,16⟩⟩] := by decide +kernel
    have registered : (names.registry.get? "Math").isSome = true := by decide +kernel
    have missing : ((names.registry.get? "Math").bind (·.findStaticMember "Größe")).isNone = true := by decide +kernel
    obtain ⟨info,found⟩ := Option.isSome_iff_exists.mp registered
    have absent : info.findStaticMember "Größe" = none := by
      rw [found] at missing
      exact Option.isNone_iff_eq_none.mp missing
    let type : DottedName := ⟨⟨"Math",⟨4,8⟩⟩,[]⟩
    have longest : names.LongestType (type.parts ++ [⟨"Größe",⟨9,16⟩⟩]) type [⟨"Größe",⟨9,16⟩⟩] info := by
      refine ⟨⟨rfl,List.cons_ne_nil _ _⟩,found,?_⟩
      rintro longer others ⟨whole,filled⟩ less
      have lengths := congrArg List.length whole
      have some := List.length_pos_iff.mpr filled
      rw [List.length_append,List.length_append] at lengths
      change 1 < _ at less
      change 1 + 1 = _ at lengths
      omega
    have noMember : ∀ m, ¬names.HasContextMember type.first.text m := by
      rintro m ⟨_,_,none,_⟩
      cases none
    have read : .ok ⟨.name "Math.Größe",⟨4,16⟩⟩ ∈ Lexer.readings "1 + Math.Größe" := read_of_tokenize tokenized (by simp)
    obtain ⟨_,_,blames,_⟩ := name_resolved names {} none none read rfl
      (s := ⟨⟨.name "Math.Größe",⟨4,16⟩⟩,[.ok ⟨.ending,⟨16,16⟩⟩],[]⟩) rfl (by decide)
    exact (blames _ _ [] _ (by decide +kernel) (.static noMember longest absent)).1

end Parser
end TypedFormula
