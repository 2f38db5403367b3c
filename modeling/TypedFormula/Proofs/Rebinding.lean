import TypedFormula.Proofs.ParsedTrees

namespace TypedFormula

variable {σ : Type}

namespace Expr

-- The tree that a run of members starts from: one that is no member, or the first member of the context
-- or of a type.
def origin : Expr σ → Expr σ
  | .member (.value target) _ _ => origin target
  | e => e

-- The members of the run behind the tree that it starts from.
def walked : Expr σ → List String
  | .member (.value target) m _ => walked target ++ [m.name]
  | _ => []

def root? : Expr σ → Option (Receiver (Expr σ))
  | .member .context _ _ => some .context
  | .member (.type name) _ _ => some (.type name)
  | .member (.value target) _ _ => root? target
  | _ => none

theorem path_origin (e : Expr σ) : e.path = e.origin.path ++ e.walked := by
  induction e using Expr.induction with
  | member receiver m span below =>
    cases receiver with
    | context | type => rfl
    | value target =>
      rw [path_member,Receiver.names,below target rfl,origin,walked,List.append_assoc]
  | literal | unary | binary | call | index => rfl

theorem origin_cases (e : Expr σ) : (e.root? = none ∧ e.origin.path = []) ∨
    (∃ m span, e.root? = some .context ∧ e.origin = .member .context m span) ∨
    ∃ name m span, e.root? = some (.type name) ∧ e.origin = .member (.type name) m span := by
  induction e using Expr.induction with
  | member receiver m span below =>
    cases receiver with
    | context => exact .inr (.inl ⟨m,span,rfl,rfl⟩)
    | type name => exact .inr (.inr ⟨name,m,span,rfl,rfl⟩)
    | value target => exact below target rfl
  | literal | unary | binary | call | index => exact .inl ⟨rfl,rfl⟩

end Expr

def Receiver.root? : Receiver (Expr σ) → Option (Receiver (Expr σ))
  | .value target => target.root?
  | root => some root

namespace Expr

-- No beginning of the dotted name that is longer than its root is a type.
def NameClear (scope : Scope σ) (receiver : Receiver (Expr σ)) (name : String) : Prop :=
  ∀ root, receiver.root? = some root → ∀ n, root.names.length < n → n ≤ receiver.names.length →
    scope.registry.get? (dotted ((receiver.names ++ [name]).take n)) = none

-- The same for the dotted name that a node ends, if it ends one.
def NamesClear (scope : Scope σ) : Expr σ → Prop
  | .member receiver m _ => NameClear scope receiver m.name
  | .call receiver m _ _ => NameClear scope receiver m.name
  | _ => True

instance (scope : Scope σ) (receiver : Receiver (Expr σ)) (name : String) :
    Decidable (NameClear scope receiver name) :=
  decidable_of_iff (∀ root ∈ receiver.root?, ∀ n, n ≤ receiver.names.length → root.names.length < n →
      (scope.registry.get? (dotted ((receiver.names ++ [name]).take n))).isNone = true)
    ⟨fun clear root rooted n longer proper => Option.isNone_iff_eq_none.mp (clear root rooted n proper longer),
      fun clear root rooted n proper longer => Option.isNone_iff_eq_none.mpr (clear root rooted n longer proper)⟩

instance (scope : Scope σ) (e : Expr σ) : Decidable (e.NamesClear scope) :=
  match e with
  | .member receiver m _ => inferInstanceAs (Decidable (NameClear scope receiver m.name))
  | .call receiver m _ _ => inferInstanceAs (Decidable (NameClear scope receiver m.name))
  | .literal _ _ | .unary _ _ _ _ | .binary _ _ _ _ _ | .index _ _ _ _ => inferInstanceAs (Decidable True)

variable {scope : Scope σ}

theorem instanceMembers_append (x : Expr σ) (front back : List Segment) :
    scope.instanceMembers? x (front ++ back) =
      (scope.instanceMembers? x front).bind (scope.instanceMembers? · back) := by
  induction front generalizing x with
  | nil => rfl
  | cons segment front ih =>
    rw [List.cons_append,Scope.instanceMembers?,Scope.instanceMembers?,Option.bind_assoc]
    exact congrArg _ (funext fun y => ih y)

-- The members of a run on another tree than the one it starts from.
def onto (y : Expr σ) : Expr σ → Expr σ
  | .member (.value target) m span => .member (.value (onto y target)) m span
  | _ => y

theorem onto_origin (e : Expr σ) : onto e.origin e = e := by
  induction e using Expr.induction with
  | member receiver m span below =>
    cases receiver with
    | context | type => rfl
    | value target => rw [origin,onto,below target rfl]
  | literal | unary | binary | call | index => rfl

theorem onto_of_path {e : Expr σ} (none : e.path = []) (y : Expr σ) : onto y e = y := by
  cases e with
  | member => rw [path_member] at none; simp at none
  | literal | unary | binary | call | index => rfl

theorem onto_ty {y e : Expr σ} (same : y.ty = e.origin.ty) : (onto y e).ty = e.ty := by
  cases e with
  | member receiver m span => cases receiver <;> first | exact same | rfl
  | literal | unary | binary | call | index => exact same

theorem instanceMember_again {x y : Expr σ} {m : Member σ} {span : Span} {segment : Segment}
    (bound : WellBound scope (.member (.value x) m span)) (same : y.ty = x.ty) (text : segment.text = m.name) :
    scope.instanceMember? y segment = some (.member (.value y) m (y.span.union segment.span)) := by
  cases bound with
  | @member _ _ _ info below provided found =>
    have registered : scope.registry.get? y.ty.name = some info := by
      rw [same]
      exact provided
    have isMember : info.findMember m.name = some m := found
    unfold Scope.instanceMember?
    rw [registered,Option.bind_some,text,isMember]
    rfl

theorem instanceMembers_again {e y z : Expr σ} {segments : List Segment} (bound : WellBound scope e)
    (same : y.ty = e.origin.ty) (alike : Alike Eq y z) (texts : segments.map (·.text) = e.walked) :
    ∃ x, scope.instanceMembers? z segments = some x ∧ Alike Eq (onto y e) x := by
  induction e using Expr.induction generalizing segments with
  | member receiver m span below =>
    cases receiver with
    | context | type =>
      cases List.map_eq_nil_iff.mp texts
      exact ⟨z,rfl,alike⟩
    | value target =>
      obtain ⟨front,back,rfl,one,two⟩ := List.map_eq_append_iff.mp texts
      obtain ⟨segment,rfl,last⟩ := List.map_eq_singleton_iff.mp two
      have inner : WellBound scope target := by
        cases bound with
        | member below => exact below target rfl
      obtain ⟨x,found,like⟩ := below target rfl inner same one
      have ty : x.ty = target.ty := by
        rw [← like.ty fun _ _ same => by rw [same]]
        exact onto_ty same
      have next := instanceMember_again bound ty last
      refine ⟨.member (.value x) m (x.span.union segment.span),?_,⟨rfl,like⟩⟩
      rw [instanceMembers_append,found,Option.bind_some,Scope.instanceMembers?,next]
      rfl
  | literal | unary | binary | call | index =>
    cases List.map_eq_nil_iff.mp texts
    exact ⟨z,rfl,alike⟩

theorem longestType_again {name : DottedName} {typeName member : String} {others : List String}
    {info : TypeInfo σ} (registered : scope.registry.get? typeName = some info)
    (texts : name.texts = pieces typeName ++ member :: others)
    (clear : ∀ mid rest, others = mid ++ rest → rest ≠ [] →
      scope.registry.get? (dotted (pieces typeName ++ member :: mid)) = none) :
    ∃ type segment tail, scope.longestType? name = some (info,type,segment,tail) ∧
      type.text = typeName ∧ segment.text = member ∧ tail.map (·.text) = others := by
  obtain ⟨front,back,split,one,two⟩ := List.map_eq_append_iff.mp texts
  obtain ⟨segment,tail,rfl,isMember,isOthers⟩ := List.map_eq_cons_iff.mp two
  obtain ⟨first,rest,rfl⟩ := List.exists_cons_of_ne_nil (l := front) (by
    rintro rfl
    exact pieces_ne_nil typeName one.symm)
  obtain ⟨nameFirst,nameOthers⟩ := name
  rw [List.cons_append] at split
  obtain ⟨same,behind⟩ := List.cons.inj split
  dsimp only at same behind
  subst same behind
  have typeText : (DottedName.mk nameFirst rest).text = typeName := by
    rw [DottedName.text_eq,DottedName.texts,DottedName.parts,one,dotted_pieces]
  obtain ⟨longer,shorter,cuts,reach⟩ := DottedName.cuts_at nameFirst rest segment tail
  refine ⟨⟨nameFirst,rest⟩,segment,tail,?_,typeText,isMember,isOthers⟩
  unfold Scope.longestType?
  dsimp only
  rw [cuts,List.findSome?_append,List.findSome?_eq_none_iff.mpr (?absent : ∀ cut ∈ longer, _),Option.none_or,
    List.findSome?_cons,typeText,registered]
  · rfl
  case absent =>
    intro cut present
    obtain ⟨mid,next,left,tailSplit,parts⟩ := reach cut present
    have text : cut.1.text = dotted (pieces typeName ++ member :: mid.map (·.text)) := by
      rw [DottedName.text_eq,DottedName.texts,parts,← one,← isMember,List.map_append]
      rfl
    have unregistered := clear (mid.map (·.text)) ((next :: left).map (·.text))
      (by rw [← isOthers,tailSplit,List.map_append]) (by simp)
    rw [text,unregistered]
    rfl

-- The tree that the dotted name of a run goes on from; none if the name starts at its root.
def anchor (e : Expr σ) : Option (Expr σ) :=
  match e.root? with
  | some _ => none
  | none => some e.origin

theorem wellBound_origin {e : Expr σ} (bound : WellBound scope e) : WellBound scope e.origin := by
  induction e using Expr.induction with
  | member receiver m span below =>
    cases receiver with
    | context | type => exact bound
    | value target =>
      cases bound with
      | member inner => exact below target rfl (inner target rfl)
  | literal | unary | binary | call | index => exact bound

theorem legible_target {target : Expr σ} {m : Member σ} {span : Span}
    (legible : ∀ node ∈ (Expr.member (.value target) m span).nodes, node.Legible scope) :
    ∀ node ∈ target.nodes, node.Legible scope :=
  ((forall_nodes_iff _).mp legible).2 target (by simp [children,Receiver.target?])

theorem legible_origin {e : Expr σ} (legible : ∀ node ∈ e.nodes, node.Legible scope) :
    e.origin.Legible scope ∧ ∀ name ∈ e.walked, '.' ∉ name.toList := by
  induction e using Expr.induction with
  | member receiver m span below =>
    obtain ⟨here,_⟩ := (forall_nodes_iff _).mp legible
    cases receiver with
    | context | type => exact ⟨here,fun _ none => by cases none⟩
    | value target =>
      obtain ⟨start,plain⟩ := below target rfl (legible_target legible)
      refine ⟨start,?_⟩
      intro name present
      rcases List.mem_append.mp present with before | last
      · exact plain name before
      · rw [List.mem_singleton.mp last]
        exact here.1
  | literal | unary | binary | call | index =>
    exact ⟨((forall_nodes_iff _).mp legible).1,fun _ none => by cases none⟩

-- No beginning of a run's name is a type, but for its root.
theorem clear_path {e : Expr σ} (clear : e.NamesClear scope) {root : Receiver (Expr σ)}
    (rooted : e.root? = some root) (n : Nat) (longer : root.names.length < n) (proper : n < e.path.length) :
    scope.registry.get? (dotted (e.path.take n)) = none := by
  cases e with
  | member receiver m span =>
    rw [path_member] at proper ⊢
    rw [List.length_append,List.length_singleton] at proper
    refine clear root ?_ n longer (by omega)
    cases receiver <;> exact rooted
  | literal | unary | binary | call | index => cases rooted

-- What a name goes on from when it is looked up again: nothing if it is rooted, and otherwise a tree like
-- one that has the type of the original.
inductive Stands : Option (Expr σ) → Option (Expr σ) → Option (Expr σ) → Prop where
  | rooted : Stands none none none
  | anchored {base y z : Expr σ} (same : y.ty = base.ty) (alike : Alike Eq y z) :
      Stands (some base) (some y) (some z)

def upon (target : Option (Expr σ)) (e : Expr σ) : Expr σ :=
  match target with
  | some y => onto y e
  | none => e

theorem root_of_context {m : Member σ} {span : Span} {name : DottedName}
    (bound : WellBound scope (.member .context m span)) (first : name.first.text = m.name) :
    scope.root? name = some (.member .context m name.first.span,name.others) := by
  cases bound with
  | @member _ _ _ info _ provided found =>
    obtain ⟨typeName,isContext,registered⟩ := Option.bind_eq_some_iff.mp provided
    have isMember : info.findMember m.name = some m := found
    have contextMember : scope.contextMember? name.first.text = some (typeName,m) := by
      unfold Scope.contextMember?
      rw [isContext,first]
      simp [registered,isMember]
    unfold Scope.root?
    rw [contextMember]

theorem root_of_type {typeName : String} {m : Member σ} {span : Span} {name : DottedName} {others : List String}
    (bound : WellBound scope (.member (.type typeName) m span))
    (noContext : scope.contextMember? name.first.text = none)
    (texts : name.texts = pieces typeName ++ m.name :: others)
    (clear : ∀ mid rest, others = mid ++ rest → rest ≠ [] →
      scope.registry.get? (dotted (pieces typeName ++ m.name :: mid)) = none) :
    ∃ place tail, scope.root? name = some (.member (.type typeName) m place,tail) ∧ tail.map (·.text) = others := by
  cases bound with
  | @member _ _ _ info _ provided found =>
    have isMember : info.findStaticMember m.name = some m := found
    obtain ⟨type,segment,tail,longest,isType,isName,isTail⟩ := longestType_again provided texts clear
    refine ⟨⟨type.first.span.start,segment.span.stop⟩,tail,?_,isTail⟩
    unfold Scope.root?
    rw [noContext,longest]
    dsimp only
    rw [Scope.staticMember?,isName,isMember,isType]
    rfl

theorem clear_walked {e : Expr σ} {typeName : String} {m : Member σ} {span : Span} (clear : e.NamesClear scope)
    (rooted : e.root? = some (.type typeName)) (isOrigin : e.origin = .member (.type typeName) m span)
    (plain : '.' ∉ m.name.toList) (walkedPlain : ∀ name ∈ e.walked, '.' ∉ name.toList) (mid rest : List String)
    (split : e.walked = mid ++ rest) (filled : rest ≠ []) :
    scope.registry.get? (dotted (pieces typeName ++ m.name :: mid)) = none := by
  have whole : e.path = typeName :: m.name :: (mid ++ rest) := by
    rw [path_origin,isOrigin,split]
    rfl
  have long := List.length_pos_iff.mpr filled
  have absent := clear_path clear rooted (mid.length + 2) (by simp [Receiver.names])
    (by rw [whole]; simp; omega)
  have taken : e.path.take (mid.length + 2) = typeName :: m.name :: mid := by
    rw [whole]
    simp
  have plainMid := flatMap_pieces_plain fun name present =>
    walkedPlain name (by rw [split]; exact List.mem_append_left rest present)
  rw [taken,← dotted_flatMap_pieces (List.cons_ne_nil _ _),List.flatMap_cons,List.flatMap_cons,
    pieces_plain plain,plainMid] at absent
  exact absent

theorem members_again {e : Expr σ} {shape target : Option (Expr σ)} {name : DottedName}
    (bound : WellBound scope e) (legible : ∀ node ∈ e.nodes, node.Legible scope)
    (clear : e.NamesClear scope) (stands : Stands e.anchor shape target) (texts : name.texts = e.parts) :
    ∃ x, scope.members? name target = some x ∧ Alike Eq (e.upon shape) x := by
  have start := wellBound_origin bound
  obtain ⟨clean,plain⟩ := legible_origin legible
  have parts : e.parts = e.origin.parts ++ e.walked := by
    rw [Expr.parts,path_origin,List.flatMap_append,flatMap_pieces_plain plain]
    rfl
  rw [parts] at texts
  unfold anchor at stands
  -- The name goes on from another tree, or starts with a member of the context, or with a type.
  rcases e.origin_cases with ⟨rootless,none⟩ | ⟨m,span,rooted,isOrigin⟩ | ⟨typeName,m,span,rooted,isOrigin⟩
  · rw [rootless] at stands
    cases stands with
    | anchored same alike =>
      rw [Expr.parts,none] at texts
      exact instanceMembers_again bound same alike texts
  · rw [rooted] at stands
    cases stands
    have whole := onto_origin e
    rw [isOrigin] at start clean texts whole
    rw [Expr.parts,path,List.flatMap_cons,List.flatMap_nil,List.append_nil,pieces_plain clean.1] at texts
    obtain ⟨first,others⟩ := List.cons.inj texts
    have alike : Alike Eq (.member .context m span) (.member .context m name.first.span : Expr σ) :=
      ⟨rfl,trivial⟩
    obtain ⟨x,walked,like⟩ := instanceMembers_again bound (by rw [isOrigin]) alike others
    refine ⟨x,?_,by rw [upon,← whole]; exact like⟩
    unfold Scope.members?
    rw [root_of_context start first]
    exact walked
  · rw [rooted] at stands
    cases stands
    have whole := onto_origin e
    rw [isOrigin] at start clean texts whole
    rw [Expr.parts,path,List.flatMap_cons,List.flatMap_cons,List.flatMap_nil,List.append_nil,
      pieces_plain clean.1,List.append_assoc] at texts
    -- A member of the context would hide the type.
    have noContext : scope.contextMember? name.first.text = none := by
      refine clean.2 typeName rfl _ ?_
      have heads := congrArg List.head? texts
      rw [List.head?_append_of_ne_nil _ (pieces_ne_nil typeName)] at heads
      exact heads.symm
    obtain ⟨place,tail,root,isTail⟩ :=
      root_of_type start noContext texts (clear_walked clear rooted isOrigin clean.1 plain)
    have alike : Alike Eq (.member (.type typeName) m span) (.member (.type typeName) m place : Expr σ) := ⟨rfl,rfl⟩
    obtain ⟨x,walked,like⟩ := instanceMembers_again bound (by rw [isOrigin]) alike isTail
    refine ⟨x,?_,by rw [upon,← whole]; exact like⟩
    unfold Scope.members?
    rw [root]
    exact walked

end Expr

def Receiver.anchor : Receiver (Expr σ) → Option (Expr σ)
  | .value target => target.anchor
  | _ => none

def Receiver.upon (target : Option (Expr σ)) : Receiver (Expr σ) → Receiver (Expr σ)
  | .value x => .value (x.upon target)
  | root => root

namespace Expr

variable {scope : Scope σ}

theorem anchor_of_path {e : Expr σ} (none : e.path = []) : e.anchor = some e := by
  cases e with
  | member => rw [path_member] at none; simp at none
  | literal | unary | binary | call | index => rfl

theorem root_shorter {e : Expr σ} {root : Receiver (Expr σ)} (rooted : e.root? = some root) :
    root.names.length < e.path.length := by
  rw [path_origin,List.length_append]
  rcases e.origin_cases with ⟨rootless,_⟩ | ⟨m,span,same,isOrigin⟩ | ⟨typeName,m,span,same,isOrigin⟩
  · rw [rootless] at rooted
    cases rooted
  · cases same.symm.trans rooted
    simp [isOrigin,path,Receiver.names]
  · cases same.symm.trans rooted
    simp [isOrigin,path,Receiver.names]
    omega

theorem upon_ty {e : Expr σ} {shape target : Option (Expr σ)} (stands : Stands e.anchor shape target) :
    (e.upon shape).ty = e.ty := by
  unfold anchor at stands
  split at stands
  · cases stands
    rfl
  · cases stands with
    | anchored same => exact onto_ty same

theorem valueCallee_again {x y : Expr σ} {info : TypeInfo σ} {segment : Segment} (same : y.ty = x.ty)
    (provided : scope.registry.get? x.ty.name = some info) :
    scope.valueCallee? y segment = some ⟨.value y,info,segment⟩ := by
  rw [Scope.valueCallee?,same,provided]
  rfl

theorem parts_ne_nil {e : Expr σ} (filled : e.path ≠ []) : e.parts ≠ [] := by
  intro empty
  rw [Expr.parts,List.flatMap_eq_nil_iff] at empty
  obtain ⟨first,others,split⟩ := List.exists_cons_of_ne_nil filled
  exact pieces_ne_nil first (empty first (by rw [split]; exact List.mem_cons_self))

theorem clear_receiver {x : Expr σ} {method : String} {shape : Option (Expr σ)} {path : DottedName}
    (clear : NameClear scope (.value x) method) (filled : x.path ≠ []) (stands : Stands x.anchor shape none)
    (isPath : path.texts = x.parts) : scope.registry.get? path.text = none := by
  obtain ⟨root,rooted⟩ : ∃ root, x.root? = some root := by
    cases rootless : x.root? with
    | some root => exact ⟨root,rfl⟩
    | none =>
      rw [anchor,rootless] at stands
      cases stands
  have unregistered := clear root rooted x.path.length (root_shorter rooted) (Nat.le_refl _)
  rw [Receiver.names,List.take_left,← dotted_flatMap_pieces filled] at unregistered
  rw [DottedName.text_eq,isPath]
  exact unregistered

theorem callee_of_members {y : Expr σ} {target : Option (Expr σ)} {name path : DottedName} {segment : Segment}
    (split : name.splitLast? = some (path,segment)) (found : scope.members? path target = some y)
    (noType : target = none → scope.registry.get? path.text = none) :
    scope.callee? name target = scope.valueCallee? y segment := by
  unfold Scope.callee?
  rw [split]
  cases target with
  | some start =>
    dsimp only
    rw [found]
    rfl
  | none =>
    dsimp only
    rw [noType rfl]
    dsimp only
    rw [found]
    rfl

theorem callee_again {receiver : Receiver (Expr σ)} {info : TypeInfo σ} {method : String}
    {shape target : Option (Expr σ)} {name : DottedName}
    (bound : ∀ x, receiver = .value x → WellBound scope x)
    (legible : ∀ x, receiver = .value x → ∀ node ∈ x.nodes, node.Legible scope)
    (inner : ∀ x, receiver = .value x → x.NamesClear scope) (clear : NameClear scope receiver method)
    (provided : scope.provider? receiver = some info) (stands : Stands receiver.anchor shape target)
    (texts : name.texts = receiver.parts ++ [method]) :
    ∃ other segment, scope.callee? name target = some ⟨other,info,segment⟩ ∧ segment.text = method ∧
      ReceiversAlike Eq (receiver.upon shape) other := by
  cases receiver with
  | context =>
    cases stands
    obtain ⟨alone,_,isMethod⟩ := DottedName.splitLast_none texts
    refine ⟨.context,name.first,?_,isMethod,trivial⟩
    unfold Scope.callee?
    rw [alone]
    dsimp only
    rw [Scope.contextCallee?,provided]
    rfl
  | type typeName =>
    cases stands
    have parts : (Receiver.type typeName : Receiver (Expr σ)).parts = pieces typeName := List.append_nil _
    rw [parts] at texts
    obtain ⟨type,segment,split,isType,isMethod⟩ := DottedName.splitLast_some texts (pieces_ne_nil _)
    have text : type.text = typeName := by rw [DottedName.text_eq,isType,dotted_pieces]
    refine ⟨.type typeName,segment,?_,isMethod,rfl⟩
    unfold Scope.callee?
    rw [split]
    dsimp only
    rw [text,show scope.registry.get? typeName = some info from provided]
  | value x =>
    have ty := upon_ty stands
    -- A receiver that ends no name is itself in front; otherwise the method is one more part of its name.
    by_cases none : x.path = []
    · rw [Receiver.anchor,anchor_of_path none] at stands
      cases stands with
      | @anchored _ y z same alike =>
        rw [Receiver.parts,Receiver.names,none] at texts
        obtain ⟨alone,_,isMethod⟩ := DottedName.splitLast_none texts
        refine ⟨.value z,name.first,?_,isMethod,?_⟩
        · unfold Scope.callee?
          rw [alone]
          exact valueCallee_again ((alike.ty fun _ _ same => by rw [same]).symm.trans same) provided
        · change Alike Eq (onto y x) z
          rw [onto_of_path none]
          exact alike
    · obtain ⟨path,segment,split,isPath,isMethod⟩ := DottedName.splitLast_some texts (parts_ne_nil none)
      obtain ⟨y,found,alike⟩ := members_again (bound x rfl) (legible x rfl) (inner x rfl) stands isPath
      have valued : scope.valueCallee? y segment = some ⟨.value y,info,segment⟩ :=
        valueCallee_again ((alike.ty fun _ _ same => by rw [same]).symm.trans ty) provided
      refine ⟨.value y,segment,?_,isMethod,alike⟩
      rw [callee_of_members split found ?_]
      · exact valued
      · rintro rfl
        exact clear_receiver clear none stands isPath

end Expr
end TypedFormula
