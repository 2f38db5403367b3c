import TypedFormula.Proofs.PrintedTokens
import TypedFormula.Proofs.WellBound

namespace TypedFormula

theorem IsName.join {a b : String} (one : IsName a) (two : IsName b) : IsName (a ++ "." ++ b) := by
  have dot : '.' ∈ (a ++ "." ++ b).toList := by simp
  obtain ⟨c,cs,split,starts⟩ := one.starts
  obtain ⟨d,ds,other,_⟩ := two.starts
  refine ⟨⟨c,cs ++ '.' :: b.toList,by simp [split],starts⟩,?_,?_,?_,?_⟩
  · intro x present
    simp only [String.toList_append,List.mem_append] at present
    rcases present with (first | point) | second
    · exact one.continues x first
    · cases List.mem_singleton.mp point
      decide
    · exact two.continues x second
  · have last := two.noLastDot
    rw [String.toList_append,List.getLast?_append,other]
    rw [other] at last
    rw [List.getLast?_eq_some_getLast (List.cons_ne_nil d ds)] at last ⊢
    exact last
  · intro same
    rw [same] at dot
    exact absurd dot (by decide)
  · intro same
    rw [same] at dot
    exact absurd dot (by decide)

variable {σ : Type}

namespace Expr

def parts (e : Expr σ) : List String := e.path.flatMap pieces

-- What holds of a node by itself. A type whose name starts like a member of the context is out of reach
-- for members.
def Legible (scope : Scope σ) : Expr σ → Prop
  | .literal value _ => (TokenKind.ofValue value).Spellable
  | .member receiver m _ => '.' ∉ m.name.toList ∧ ∀ typeName, receiver = .type typeName →
      ∀ piece, (pieces typeName).head? = some piece → scope.contextMember? piece = none
  | .call _ m _ _ => '.' ∉ m.name.toList
  | .index receiver _ _ _ => ∀ target, receiver = .value target → target.path ≠ []
  | _ => True

-- A tree that a name may go on with.
structure Fronted (scope : Scope σ) (e : Expr σ) : Prop where
  legible : ∀ node ∈ e.nodes, node.Legible scope
  front : ∀ kind ∈ leadKinds (.value e), kind.Spellable

structure Parsed (scope : Scope σ) (e : Expr σ) : Prop where
  legible : ∀ node ∈ e.nodes, node.Legible scope
  spellable : ∀ kind ∈ e.kinds, kind.Spellable

variable {scope : Scope σ}

theorem kinds_of_path {e : Expr σ} (named : e.path ≠ []) :
    e.kinds = leadKinds (.value e) ++ [.name (dotted e.path)] := by
  cases e with
  | member receiver m span => rw [path_member]; rfl
  | literal | unary | binary | call | index => exact absurd rfl named

theorem Parsed.fronted {e : Expr σ} (parsed : Parsed scope e) : Fronted scope e := by
  refine ⟨parsed.legible,?_⟩
  intro kind present
  by_cases none : e.path = []
  · rw [leadKinds_of_path none,pointAt] at present
    split at present
    · simp only [List.mem_cons,List.mem_append,List.not_mem_nil,or_false] at present
      rcases present with rfl | inside | rfl | rfl
      · trivial
      · exact parsed.spellable kind inside
      · trivial
      · trivial
    · simp only [List.mem_cons,List.mem_append,List.not_mem_nil,or_false] at present
      rcases present with inside | rfl
      · exact parsed.spellable kind inside
      · trivial
  · exact parsed.spellable kind (by rw [kinds_of_path none]; exact List.mem_append_left _ present)

theorem Parsed.isName {e : Expr σ} (parsed : Parsed scope e) (named : e.path ≠ []) :
    IsName (dotted e.path) :=
  parsed.spellable (.name (dotted e.path)) (by rw [kinds_of_path named]; simp)

theorem Fronted.parsed {e : Expr σ} (fronted : Fronted scope e) (named : e.path ≠ [])
    (isName : IsName (dotted e.path)) : Parsed scope e := by
  refine ⟨fronted.legible,?_⟩
  rw [kinds_of_path named]
  intro kind present
  rcases List.mem_append.mp present with inFront | last
  · exact fronted.front kind inFront
  · cases List.mem_singleton.mp last
    exact isName

theorem parsed_withSpan {e : Expr σ} (parsed : Parsed scope e) (span : Span) :
    Parsed scope (e.withSpan span) := by
  refine ⟨?_,?_⟩
  · rw [forall_nodes_iff,children_withSpan]
    obtain ⟨here,below⟩ := (forall_nodes_iff e).mp parsed.legible
    refine ⟨?_,below⟩
    cases e <;> exact here
  · have same : (e.withSpan span).kinds = e.kinds := by cases e <;> rfl
    rw [same]
    exact parsed.spellable

theorem Fronted.instanceMember {x e : Expr σ} {segment : Segment} (fronted : Fronted scope x)
    (plain : '.' ∉ segment.text.toList) (found : scope.instanceMember? x segment = some e) :
    Fronted scope e ∧ e.path = x.path ++ [segment.text] := by
  obtain ⟨m,lookup,rfl⟩ := Option.map_eq_some_iff.mp found
  obtain ⟨info,_,isMember⟩ := Option.bind_eq_some_iff.mp lookup
  have name := MemberTable.name_of_findMember isMember
  refine ⟨⟨?_,fronted.front⟩,by rw [path_member,name]; rfl⟩
  rw [forall_nodes_iff]
  refine ⟨⟨by rw [name]; exact plain,fun _ same => by cases same⟩,?_⟩
  simpa [children,Receiver.target?] using fronted.legible

theorem Fronted.instanceMembers {segments : List Segment} {x e : Expr σ} (fronted : Fronted scope x)
    (plain : ∀ segment ∈ segments, '.' ∉ segment.text.toList)
    (found : scope.instanceMembers? x segments = some e) :
    Fronted scope e ∧ e.path = x.path ++ segments.map (·.text) := by
  induction segments generalizing x with
  | nil => cases found; exact ⟨fronted,by simp⟩
  | cons segment rest ih =>
    obtain ⟨next,one,others⟩ := Option.bind_eq_some_iff.mp found
    obtain ⟨here,path⟩ := fronted.instanceMember (plain segment List.mem_cons_self) one
    obtain ⟨there,same⟩ := ih here (fun other present => plain other (List.mem_cons_of_mem _ present)) others
    exact ⟨there,by rw [same,path]; simp⟩

theorem parts_instanceMembers {x e : Expr σ} {segments : List Segment}
    (plain : ∀ segment ∈ segments, '.' ∉ segment.text.toList)
    (path : e.path = x.path ++ segments.map (·.text)) : e.parts = x.parts ++ segments.map (·.text) := by
  have texts : ∀ name ∈ segments.map (·.text), '.' ∉ name.toList := by
    intro name present
    obtain ⟨segment,inside,rfl⟩ := List.mem_map.mp present
    exact plain segment inside
  rw [parts,path,List.flatMap_append,flatMap_pieces_plain texts]
  rfl

theorem longestType_split {name type : DottedName} {info : TypeInfo σ} {segment : Segment}
    {rest : List Segment} (found : scope.longestType? name = some (info,type,segment,rest)) :
    name.first :: name.others = type.parts ++ segment :: rest := by
  obtain ⟨cut,present,here⟩ := List.exists_of_findSome?_eq_some found
  obtain ⟨_,_,same⟩ := Option.map_eq_some_iff.mp here
  cases same
  exact DottedName.mem_cuts present

theorem fronted_root {name : DottedName} {e : Expr σ} {rest : List Segment}
    (plain : ∀ piece ∈ name.texts, '.' ∉ piece.toList) (found : scope.root? name = some (e,rest)) :
    Fronted scope e ∧ e.path ≠ [] ∧ e.parts ++ rest.map (·.text) = name.texts := by
  unfold Scope.root? at found
  split at found
  · rename_i typeName m isMember
    cases found
    obtain ⟨bound,_,rest⟩ := Option.bind_eq_some_iff.mp isMember
    obtain ⟨info,_,lookup⟩ := Option.bind_eq_some_iff.mp rest
    obtain ⟨other,isMember,same⟩ := Option.bind_eq_some_iff.mp lookup
    cases same
    -- A member of the context goes first and takes one part.
    have first := MemberTable.name_of_findMember isMember
    have clean : '.' ∉ m.name.toList := by
      rw [first]
      exact plain _ List.mem_cons_self
    refine ⟨⟨?_,fun _ none => by cases none⟩,List.cons_ne_nil _ _,?_⟩
    · rw [forall_nodes_iff]
      exact ⟨⟨clean,fun _ same => by cases same⟩,by simp [children,Receiver.target?]⟩
    · rw [parts,path,List.flatMap_cons,pieces_plain clean,first]
      rfl
  · rename_i noContext
    split at found
    · rename_i info type segment others longest
      obtain ⟨x,static,same⟩ := Option.map_eq_some_iff.mp found
      cases same
      obtain ⟨m,isMember,rfl⟩ := Option.map_eq_some_iff.mp static
      have last := MemberTable.name_of_findMember isMember
      have split := longestType_split longest
      have texts : name.texts = type.texts ++ segment.text :: rest.map (·.text) := by
        change (name.first :: name.others).map (·.text) = _
        rw [split,List.map_append]
        rfl
      have typePieces : pieces type.text = type.texts := DottedName.pieces_text fun piece inside =>
        plain piece (by rw [texts]; exact List.mem_append_left _ inside)
      have clean : '.' ∉ m.name.toList := by
        rw [last]
        exact plain _ (by rw [texts]; simp)
      refine ⟨⟨?_,fun _ none => by cases none⟩,List.cons_ne_nil _ _,?_⟩
      · rw [forall_nodes_iff]
        refine ⟨⟨clean,?_⟩,by simp [children,Receiver.target?]⟩
        rintro _ ⟨⟩ piece first
        rw [typePieces] at first
        cases first
        have same : name.first = type.first := (List.cons.inj split).1
        -- The name starts with the type only because the context has no member of that name.
        rw [← same]
        exact noContext
      · rw [parts,path,List.flatMap_cons,List.flatMap_cons,pieces_plain clean,typePieces,last,texts]
        simp
    · cases found

def targetParts (target : Option (Expr σ)) : List String := target.elim [] parts

theorem fronted_members {name : DottedName} {target : Option (Expr σ)} {e : Expr σ}
    (plain : ∀ piece ∈ name.texts, '.' ∉ piece.toList) (below : ∀ x, target = some x → Fronted scope x)
    (found : scope.members? name target = some e) :
    Fronted scope e ∧ e.path ≠ [] ∧ e.parts = targetParts target ++ name.texts := by
  cases target with
  | some x =>
    have clean : ∀ segment ∈ name.parts, '.' ∉ segment.text.toList :=
      fun segment present => plain _ (List.mem_map_of_mem present)
    obtain ⟨fronted,path⟩ := (below x rfl).instanceMembers clean found
    exact ⟨fronted,by simp [path,DottedName.parts],parts_instanceMembers clean path⟩
  | none =>
    obtain ⟨⟨start,rest⟩,rooted,walked⟩ := Option.bind_eq_some_iff.mp found
    obtain ⟨front,named,split⟩ := fronted_root plain rooted
    have clean : ∀ segment ∈ rest, '.' ∉ segment.text.toList := by
      intro segment present
      refine plain _ ?_
      rw [← split]
      exact List.mem_append_right _ (List.mem_map_of_mem present)
    obtain ⟨fronted,path⟩ := front.instanceMembers clean walked
    refine ⟨fronted,by simp [path,named],?_⟩
    rw [parts_instanceMembers clean path,split]
    rfl

end Expr

def Receiver.parts (receiver : Receiver (Expr σ)) : List String := receiver.names.flatMap pieces

namespace Expr

variable {scope : Scope σ}

structure Receives (scope : Scope σ) (receiver : Receiver (Expr σ)) : Prop where
  legible : ∀ target, receiver = .value target → ∀ node ∈ target.nodes, node.Legible scope
  front : ∀ kind ∈ leadKinds receiver, kind.Spellable

theorem Fronted.receives {e : Expr σ} (fronted : Fronted scope e) : Receives scope (.value e) :=
  ⟨fun _ same => by cases same; exact fronted.legible,fronted.front⟩

theorem receives_callee {name : DottedName} {target : Option (Expr σ)} {callee : Scope.Callee σ}
    (plain : ∀ piece ∈ name.texts, '.' ∉ piece.toList) (below : ∀ x, target = some x → Fronted scope x)
    (found : scope.callee? name target = some callee) : Receives scope callee.receiver ∧
      callee.receiver.parts ++ [callee.method.text] = targetParts target ++ name.texts := by
  have ofValue : ∀ {x : Expr σ} {method : Segment}, Fronted scope x →
      scope.valueCallee? x method = some callee → Receives scope callee.receiver ∧
        callee.receiver.parts ++ [callee.method.text] = x.parts ++ [method.text] := by
    intro x method fronted valued
    obtain ⟨info,_,rfl⟩ := Option.map_eq_some_iff.mp valued
    exact ⟨fronted.receives,rfl⟩
  unfold Scope.callee? at found
  split at found
  · rename_i none
    rw [DottedName.texts_of_noSplit none]
    exact ofValue (below _ rfl) found
  · rename_i none
    obtain ⟨info,_,rfl⟩ := Option.map_eq_some_iff.mp found
    rw [DottedName.texts_of_noSplit none]
    exact ⟨⟨(fun _ same => by cases same),fun _ none => by cases none⟩,rfl⟩
  · rename_i path method split
    have inside : ∀ piece ∈ path.texts, '.' ∉ piece.toList := fun piece present =>
      plain piece (by rw [DottedName.texts_of_splitLast split]; exact List.mem_append_left _ present)
    rw [DottedName.texts_of_splitLast split]
    split at found
    · cases found
      refine ⟨⟨(fun _ same => by cases same),fun _ none => by cases none⟩,?_⟩
      change [path.text].flatMap pieces ++ _ = _
      rw [List.flatMap_cons,List.flatMap_nil,List.append_nil,DottedName.pieces_text inside]
      rfl
    · obtain ⟨x,walked,valued⟩ := Option.bind_eq_some_iff.mp found
      obtain ⟨fronted,_,same⟩ := fronted_members inside (fun _ same => by cases same) walked
      obtain ⟨receives,all⟩ := ofValue fronted valued
      exact ⟨receives,by rw [all,same,List.append_assoc]⟩
  · rename_i path method x split
    have inside : ∀ piece ∈ path.texts, '.' ∉ piece.toList := fun piece present =>
      plain piece (by rw [DottedName.texts_of_splitLast split]; exact List.mem_append_left _ present)
    obtain ⟨y,walked,valued⟩ := Option.bind_eq_some_iff.mp found
    obtain ⟨fronted,_,same⟩ := fronted_members inside below walked
    obtain ⟨receives,all⟩ := ofValue fronted valued
    exact ⟨receives,by rw [all,same,DottedName.texts_of_splitLast split,List.append_assoc]⟩

theorem isName_goesOn {target : Option (Expr σ)} {names : List String} {spelling : String}
    (below : ∀ x, target = some x → Parsed scope x) (isName : IsName spelling) (filled : names ≠ [])
    (parts : names.flatMap pieces = targetParts target ++ pieces spelling) : IsName (dotted names) := by
  rw [← dotted_flatMap_pieces filled,parts]
  by_cases alone : targetParts target = []
  · rw [alone,List.nil_append,dotted_pieces]
    exact isName
  · rw [dotted_append alone (pieces_ne_nil _),dotted_pieces]
    cases target with
    | none => exact absurd rfl alone
    | some x =>
      have named : x.path ≠ [] := by
        intro none
        exact alone (by rw [targetParts,Option.elim,Expr.parts,none]; rfl)
      rw [targetParts,Option.elim,Expr.parts,dotted_flatMap_pieces named]
      exact ((below x rfl).isName named).join isName

theorem argKinds_spellable {args : List (Expr σ)} (each : ∀ arg ∈ args, Parsed scope arg) :
    ∀ kind ∈ argKinds args, kind.Spellable := by
  induction args with
  | nil => exact fun _ none => by cases none
  | cons e es ih =>
    have others := ih fun arg present => each arg (List.mem_cons_of_mem _ present)
    have here := (each e List.mem_cons_self).spellable
    cases es with
    | nil => exact here
    | cons next es =>
      intro kind present
      rw [argKinds] at present
      · rcases List.mem_append.mp present with first | later
        · exact here kind first
        · rcases List.mem_cons.mp later with rfl | later
          · trivial
          · exact others kind later
      · exact List.cons_ne_nil _ _

theorem Receives.nodes {receiver : Receiver (Expr σ)} (receives : Receives scope receiver) :
    ∀ child ∈ receiver.target?.toList, ∀ node ∈ child.nodes, node.Legible scope := by
  intro child present
  cases receiver with
  | context | type => cases present
  | value target =>
    cases List.mem_singleton.mp present
    exact receives.legible child rfl

theorem parsed_call {receiver : Receiver (Expr σ)} {m : Method σ} {args : List (Expr σ)} {span : Span}
    (receives : Receives scope receiver) (each : ∀ arg ∈ args, Parsed scope arg)
    (plain : '.' ∉ m.name.toList) (isName : IsName (dotted (receiver.names ++ [m.name]))) :
    Parsed scope (.call receiver m args span) := by
  refine ⟨?_,?_⟩
  · rw [forall_nodes_iff]
    refine ⟨plain,fun child present => ?_⟩
    rcases List.mem_append.mp present with inReceiver | inArgs
    · exact receives.nodes child inReceiver
    · exact (each child inArgs).legible
  · intro kind present
    rw [kinds] at present
    rcases List.mem_append.mp present with inFront | behind
    · exact receives.front kind inFront
    simp only [List.mem_cons,List.mem_append,List.not_mem_nil,or_false] at behind
    rcases behind with rfl | rfl | inArgs | rfl
    · exact isName
    · trivial
    · exact argKinds_spellable each kind inArgs
    · trivial

theorem parsed_index {receiver : Receiver (Expr σ)} {ix : Indexer σ} {args : List (Expr σ)} {span : Span}
    (below : ∀ target, receiver = .value target → Parsed scope target ∧ target.path ≠ [])
    (each : ∀ arg ∈ args, Parsed scope arg) : Parsed scope (.index receiver ix args span) := by
  refine ⟨?_,?_⟩
  · rw [forall_nodes_iff]
    refine ⟨fun target same => (below target same).2,fun child present => ?_⟩
    rcases List.mem_append.mp present with inReceiver | inArgs
    · cases receiver with
      | context | type => cases inReceiver
      | value target =>
        cases List.mem_singleton.mp inReceiver
        exact (below child rfl).1.legible
    · exact (each child inArgs).legible
  · intro kind present
    rw [kinds] at present
    rcases List.mem_append.mp present with inFront | behind
    · cases receiver with
      | context | type => cases inFront
      | value target => exact (below target rfl).1.spellable kind inFront
    simp only [List.mem_cons,List.mem_append,List.not_mem_nil,or_false] at behind
    rcases behind with rfl | inArgs | rfl
    · trivial
    · exact argKinds_spellable each kind inArgs
    · trivial

theorem parsed_unary {op : UnaryOp} {opSpan : Span} {operand e : Expr σ} (below : Parsed scope operand)
    (typed : bindUnary? op opSpan operand = some e) : Parsed scope e := by
  obtain ⟨ty,_,rfl⟩ := Option.map_eq_some_iff.mp typed
  refine ⟨?_,?_⟩
  · rw [forall_nodes_iff]
    refine ⟨trivial,?_⟩
    simpa [children] using below.legible
  · intro kind present
    rcases List.mem_cons.mp present with rfl | inside
    · cases op <;> trivial
    · exact below.spellable kind inside

theorem parsed_binary {op : BinaryOp} {left right e : Expr σ} (first : Parsed scope left)
    (second : Parsed scope right) (typed : bindBinary? op left right = some e) : Parsed scope e := by
  obtain ⟨ty,_,rfl⟩ := Option.map_eq_some_iff.mp typed
  refine ⟨?_,?_⟩
  · rw [forall_nodes_iff]
    refine ⟨trivial,?_⟩
    intro child present
    simp only [children,List.mem_cons,List.not_mem_nil,or_false] at present
    rcases present with rfl | rfl
    · exact first.legible
    · exact second.legible
  · intro kind present
    simp only [kinds,List.mem_cons,List.mem_append,List.not_mem_nil,or_false] at present
    rcases present with rfl | inLeft | rfl | inRight | rfl
    · trivial
    · exact first.spellable kind inLeft
    · cases op <;> trivial
    · exact second.spellable kind inRight
    · trivial

theorem parsed_literal {kind : TokenKind} {value : Value} (is : kind.literal? = some value)
    (spellable : kind.Spellable) (span : Span) : Parsed scope (.literal value span) := by
  rw [← TokenKind.ofValue_literal is] at spellable
  refine ⟨?_,?_⟩
  · rw [forall_nodes_iff]
    exact ⟨spellable,by simp [children]⟩
  · intro kind present
    cases List.mem_singleton.mp present
    exact (TokenKind.spellable_reread value).mpr spellable

theorem parsed_members {target : Option (Expr σ)} {spelling : String} {start : Nat} {e : Expr σ}
    (below : ∀ x, target = some x → Parsed scope x) (isName : IsName spelling)
    (found : scope.members? (.ofText spelling start) target = some e) :
    Parsed scope e ∧ e.path ≠ [] := by
  have texts := DottedName.texts_ofText spelling start
  obtain ⟨fronted,named,parts⟩ := fronted_members (by rw [texts]; exact fun _ => pieces_clear)
    (fun x same => (below x same).fronted) found
  rw [texts] at parts
  exact ⟨fronted.parsed named (isName_goesOn below isName named parts),named⟩

theorem parsed_called {target : Option (Expr σ)} {spelling : String} {start : Nat}
    {callee : Scope.Callee σ} {args : List (Expr σ)} {span closing : Span} {e : Expr σ}
    (below : ∀ x, target = some x → Parsed scope x) (isName : IsName spelling)
    (resolved : scope.callee? (.ofText spelling start) target = some callee)
    (each : ∀ arg ∈ args, Parsed scope arg) (found : Scope.call? callee args span closing = some e) :
    Parsed scope e := by
  have texts := DottedName.texts_ofText spelling start
  have clear : ∀ piece ∈ (DottedName.ofText spelling start).texts, '.' ∉ piece.toList := by
    rw [texts]
    exact fun _ => pieces_clear
  obtain ⟨receives,parts⟩ := receives_callee clear (fun x same => (below x same).fronted) resolved
  obtain ⟨m,overload,rfl⟩ := Option.map_eq_some_iff.mp found
  have name : m.name = callee.method.text := by
    unfold Scope.findOverload at overload
    split at overload <;> exact (MemberTable.name_of_findMethod overload).1
  have plain : '.' ∉ m.name.toList := by
    rw [name]
    -- The method is the last part of the name or of what the name goes on from.
    have last : callee.method.text ∈ targetParts target ++ (DottedName.ofText spelling start).texts := by
      rw [← parts]
      simp
    rcases List.mem_append.mp last with inTarget | inName
    · cases target with
      | none => cases inTarget
      | some x =>
        obtain ⟨_,_,inside⟩ := List.mem_flatMap.mp inTarget
        exact pieces_clear inside
    · exact clear _ inName
  refine parsed_call receives each plain (isName_goesOn below isName (by simp) ?_)
  rw [← texts,← parts,List.flatMap_append,List.flatMap_cons,pieces_plain plain,name]
  rfl

theorem parsed_ofReads {room : Nat} {part : Part σ} {tokens : List Token} {next : Token}
    (reads : Reads scope room part tokens next) (spellable : ∀ token ∈ tokens, token.kind.Spellable) :
    part.Keeps (Parsed scope) := by
  induction reads with
  | literal is => exact parsed_literal is (spellable _ List.mem_cons_self) _
  | group _ _ _ _ inside suffixes =>
    have below : Parsed scope _ := inside fun token present => spellable token (by simp [present])
    exact suffixes (fun token present => spellable token (by simp [present])) (parsed_withSpan below _)
  | unary _ _ typed inside =>
    exact parsed_unary (inside fun token present => spellable token (List.mem_cons_of_mem _ present)) typed
  | bracket _ provided _ found inside =>
    obtain ⟨info,_,same⟩ := Option.map_eq_some_iff.mp provided
    cases same
    obtain ⟨ix,_,rfl⟩ := Option.map_eq_some_iff.mp found
    exact parsed_index (fun _ same => by cases same) (inside spellable)
  | name _ named => exact named spellable fun _ same => by cases same
  | member is _ _ found =>
    intro below
    have isName := spellable _ List.mem_cons_self
    rw [is] at isName
    exact (parsed_members below isName found).1
  | indexed is _ walked provided _ found inside =>
    intro below
    have isName := spellable _ List.mem_cons_self
    rw [is] at isName
    obtain ⟨info,_,same⟩ := Option.map_eq_some_iff.mp provided
    cases same
    obtain ⟨ix,_,rfl⟩ := Option.map_eq_some_iff.mp found
    refine parsed_index ?_ (inside fun token present => spellable token (List.mem_cons_of_mem _ present))
    rintro target ⟨⟩
    exact parsed_members below isName walked
  | called is _ resolved _ found inside =>
    intro below
    have isName := spellable _ List.mem_cons_self
    rw [is] at isName
    exact parsed_called below isName resolved
      (inside fun token present => spellable token (List.mem_cons_of_mem _ present)) found
  | noArguments => intro _ none; cases none
  | someArguments _ _ inside => exact inside fun token present => spellable token (by simp [present])
  | last _ _ _ inside =>
    intro e present
    cases List.mem_singleton.mp present
    exact inside spellable
  | more _ _ _ inside rest =>
    intro e present
    rcases List.mem_cons.mp present with rfl | later
    · exact inside fun token present => spellable token (by simp [present])
    · exact rest (fun token present => spellable token (by simp [present])) e later
  | unsuffixed => exact id
  | suffix _ _ _ named rest =>
    intro below
    refine rest (fun token present => spellable token (by simp [present]))
      (named (fun token present => spellable token (by simp [present])) ?_)
    rintro _ ⟨⟩
    exact below
  | operand _ _ first suffixes =>
    exact suffixes (fun token present => spellable token (by simp [present]))
      (first fun token present => spellable token (by simp [present]))
  | layer _ _ left chain =>
    exact chain (fun token present => spellable token (by simp [present]))
      (left fun token present => spellable token (by simp [present]))
  | unchained => exact id
  | link _ _ _ typed _ right rest =>
    intro below
    refine rest (fun token present => spellable token (by simp [present])) (parsed_binary below ?_ typed)
    exact right fun token present => spellable token (by simp [present])

end Expr
end TypedFormula
