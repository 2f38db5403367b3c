import TypedFormula.Proofs.Readings
import TypedFormula.Proofs.Trees

namespace TypedFormula

variable {σ : Type}

def Receiver.isStatic {ε : Type} : Receiver ε → Bool
  | .type _ => true
  | _ => false

namespace MemberTable

theorem name_of_findMember {t : MemberTable σ} {name : String} {m : Member σ}
    (found : t.findMember name = some m) : m.name = name := by
  rcases Option.or_eq_some_iff.mp found with property | ⟨_,field⟩
  · have fits := List.find?_some property
    exact eq_of_beq fits
  · have fits := List.find?_some field
    exact eq_of_beq fits

theorem mem_of_findMember {t : MemberTable σ} {name : String} {m : Member σ}
    (found : t.findMember name = some m) : m ∈ t.properties ++ t.fields := by
  rcases Option.or_eq_some_iff.mp found with property | ⟨_,field⟩
  · exact List.mem_append_left _ (List.mem_of_find?_eq_some property)
  · exact List.mem_append_right _ (List.mem_of_find?_eq_some field)

theorem name_of_findMethod {t : MemberTable σ} {name : String} {params : List Ty} {m : Method σ}
    (found : t.findMethod name params = some m) : m.name = name ∧ m.params = params := by
  have fits := List.find?_some found
  rw [Bool.and_eq_true] at fits
  exact ⟨eq_of_beq fits.1,eq_of_beq fits.2⟩

end MemberTable

theorem TypeInfo.params_of_findIndexer {info : TypeInfo σ} {params : List Ty} {ix : Indexer σ}
    (found : info.findIndexer params = some ix) : ix.params = params := by
  have fits := List.find?_some found
  exact eq_of_beq fits

theorem Registry.name_of_get? {registry : Registry σ} {name : String} {info : TypeInfo σ}
    (found : registry.get? name = some info) : info.name = name := by
  have fits := List.find?_some found
  exact eq_of_beq fits

inductive WellBound (scope : Scope σ) : Expr σ → Prop where
  | literal {value span} : WellBound scope (.literal value span)
  | unary {op operand ty span} (below : WellBound scope operand)
      (typed : op.resultType operand.ty = some ty) : WellBound scope (.unary op operand ty span)
  | binary {op left right ty span} (first : WellBound scope left) (second : WellBound scope right)
      (typed : op.resultType left.ty right.ty = some ty) :
      WellBound scope (.binary op left right ty span)
  | member {receiver m span info} (below : ∀ target, receiver = .value target → WellBound scope target)
      (provided : scope.provider? receiver = some info)
      (found : (info.table receiver.isStatic).findMember m.name = some m) :
      WellBound scope (.member receiver m span)
  | call {receiver m args span info} (below : ∀ target, receiver = .value target → WellBound scope target)
      (arguments : ∀ arg ∈ args, WellBound scope arg) (provided : scope.provider? receiver = some info)
      (found : (info.table receiver.isStatic).findMethod m.name (args.map Expr.ty) = some m) :
      WellBound scope (.call receiver m args span)
  -- No type has indexers of its own.
  | index {receiver ix args span info} (below : ∀ target, receiver = .value target → WellBound scope target)
      (arguments : ∀ arg ∈ args, WellBound scope arg) (dynamic : receiver.isStatic = false)
      (provided : scope.provider? receiver = some info)
      (found : info.findIndexer (args.map Expr.ty) = some ix) :
      WellBound scope (.index receiver ix args span)

namespace WellBound

variable {scope : Scope σ}

theorem child {e child : Expr σ} (bound : WellBound scope e) (isChild : child ∈ e.children) :
    WellBound scope child := by
  have ofReceiver : ∀ {receiver : Receiver (Expr σ)}, (∀ target, receiver = .value target →
      WellBound scope target) → child ∈ receiver.target?.toList → WellBound scope child := by
    intro receiver below present
    cases receiver with
    | context | type => cases present
    | value target =>
      cases List.mem_singleton.mp present
      exact below _ rfl
  cases bound with
  | literal => cases isChild
  | unary below =>
    cases List.mem_singleton.mp isChild
    exact below
  | binary first second =>
    rcases List.mem_cons.mp isChild with rfl | later
    · exact first
    · cases List.mem_singleton.mp later
      exact second
  | member below => exact ofReceiver below isChild
  | call below arguments =>
    rcases List.mem_append.mp isChild with inReceiver | inArgs
    · exact ofReceiver below inReceiver
    · exact arguments child inArgs
  | index below arguments =>
    rcases List.mem_append.mp isChild with inReceiver | inArgs
    · exact ofReceiver below inReceiver
    · exact arguments child inArgs

-- The span of a node is no part of what it is bound to.
theorem withSpan {e : Expr σ} (bound : WellBound scope e) (span : Span) :
    WellBound scope (e.withSpan span) := by
  cases bound with
  | literal => exact .literal
  | unary below typed => exact .unary below typed
  | binary first second typed => exact .binary first second typed
  | member below provided found => exact .member below provided found
  | call below arguments provided found => exact .call below arguments provided found
  | index below arguments dynamic provided found => exact .index below arguments dynamic provided found

theorem bindUnary {op : UnaryOp} {opSpan : Span} {operand e : Expr σ} (below : WellBound scope operand)
    (typed : bindUnary? op opSpan operand = some e) : WellBound scope e := by
  obtain ⟨ty,result,rfl⟩ := Option.map_eq_some_iff.mp typed
  exact .unary below result

theorem bindBinary {op : BinaryOp} {left right e : Expr σ} (first : WellBound scope left)
    (second : WellBound scope right) (typed : bindBinary? op left right = some e) :
    WellBound scope e := by
  obtain ⟨ty,result,rfl⟩ := Option.map_eq_some_iff.mp typed
  exact .binary first second result

theorem instanceMember {target e : Expr σ} {segment : Segment} (below : WellBound scope target)
    (found : scope.instanceMember? target segment = some e) : WellBound scope e := by
  obtain ⟨m,lookup,rfl⟩ := Option.map_eq_some_iff.mp found
  obtain ⟨info,provided,isMember⟩ := Option.bind_eq_some_iff.mp lookup
  refine .member (fun other same => by cases same; exact below) provided ?_
  rw [MemberTable.name_of_findMember isMember]
  exact isMember

theorem instanceMembers {segments : List Segment} {target e : Expr σ} (below : WellBound scope target)
    (found : scope.instanceMembers? target segments = some e) : WellBound scope e := by
  induction segments generalizing target with
  | nil => cases found; exact below
  | cons segment rest ih =>
    obtain ⟨next,one,others⟩ := Option.bind_eq_some_iff.mp found
    exact ih (below.instanceMember one) others

theorem longestType_provides {name type : DottedName} {info : TypeInfo σ} {segment : Segment}
    {rest : List Segment} (found : scope.longestType? name = some (info,type,segment,rest)) :
    scope.registry.get? type.text = some info := by
  obtain ⟨cut,_,here⟩ := List.exists_of_findSome?_eq_some found
  obtain ⟨other,provided,same⟩ := Option.map_eq_some_iff.mp here
  cases same
  exact provided

theorem root {name : DottedName} {e : Expr σ} {rest : List Segment}
    (found : scope.root? name = some (e,rest)) : WellBound scope e := by
  unfold Scope.root? at found
  split at found
  · rename_i typeName m isMember
    cases found
    obtain ⟨bound,isContext,rest⟩ := Option.bind_eq_some_iff.mp isMember
    obtain ⟨info,registered,lookup⟩ := Option.bind_eq_some_iff.mp rest
    obtain ⟨other,isMember,same⟩ := Option.bind_eq_some_iff.mp lookup
    cases same
    refine .member (fun _ same => by cases same) (Option.bind_eq_some_iff.mpr ⟨_,isContext,registered⟩) ?_
    rw [MemberTable.name_of_findMember isMember]
    exact isMember
  · split at found
    · rename_i info type segment others longest
      obtain ⟨x,static,same⟩ := Option.map_eq_some_iff.mp found
      cases same
      obtain ⟨m,isMember,rfl⟩ := Option.map_eq_some_iff.mp static
      refine .member (fun _ same => by cases same) (longestType_provides longest) ?_
      rw [MemberTable.name_of_findMember isMember]
      exact isMember
    · cases found

theorem members {name : DottedName} {target : Option (Expr σ)} {e : Expr σ}
    (below : ∀ x, target = some x → WellBound scope x) (found : scope.members? name target = some e) :
    WellBound scope e := by
  cases target with
  | some target => exact (below target rfl).instanceMembers found
  | none =>
    obtain ⟨start,rooted,others⟩ := Option.bind_eq_some_iff.mp found
    exact (root rooted).instanceMembers others

structure Receives (scope : Scope σ) (receiver : Receiver (Expr σ)) (info : TypeInfo σ) : Prop where
  below : ∀ target, receiver = .value target → WellBound scope target
  provided : scope.provider? receiver = some info

theorem valueCallee {target : Expr σ} {method : Segment} {callee : Scope.Callee σ}
    (below : WellBound scope target) (found : scope.valueCallee? target method = some callee) :
    Receives scope callee.receiver callee.info := by
  obtain ⟨info,provided,rfl⟩ := Option.map_eq_some_iff.mp found
  exact ⟨fun _ same => by cases same; exact below,provided⟩

theorem callee {name : DottedName} {target : Option (Expr σ)} {callee : Scope.Callee σ}
    (below : ∀ x, target = some x → WellBound scope x)
    (found : scope.callee? name target = some callee) :
    Receives scope callee.receiver callee.info := by
  unfold Scope.callee? at found
  split at found
  · exact valueCallee (below _ rfl) found
  · obtain ⟨info,provided,rfl⟩ := Option.map_eq_some_iff.mp found
    exact ⟨(fun _ same => by cases same),provided⟩
  · split at found
    · rename_i info registered
      cases found
      exact ⟨(fun _ same => by cases same),registered⟩
    · obtain ⟨x,walked,other⟩ := Option.bind_eq_some_iff.mp found
      exact valueCallee (members (fun _ same => by cases same) walked) other
  · obtain ⟨x,walked,other⟩ := Option.bind_eq_some_iff.mp found
    exact valueCallee (members below walked) other

theorem indexed {target : Option (Expr σ)} {receiver : Receiver (Expr σ)} {info : TypeInfo σ}
    (below : ∀ x, target = some x → WellBound scope x)
    (found : scope.indexed? target = some (receiver,info)) :
    Receives scope receiver info ∧ receiver.isStatic = false := by
  obtain ⟨other,provided,same⟩ := Option.map_eq_some_iff.mp found
  cases same
  cases target with
  | none => exact ⟨⟨(fun _ same => by cases same),provided⟩,rfl⟩
  | some target => exact ⟨⟨fun _ same => by cases same; exact below target rfl,provided⟩,rfl⟩

theorem isStatic_eq (callee : Scope.Callee σ) : callee.isStatic = callee.receiver.isStatic := by
  unfold Scope.Callee.isStatic Receiver.isStatic
  cases callee.receiver <;> rfl

theorem ofCall {callee : Scope.Callee σ} {args : List (Expr σ)} {span closing : Span} {e : Expr σ}
    (receives : Receives scope callee.receiver callee.info) (arguments : ∀ arg ∈ args, WellBound scope arg)
    (found : Scope.call? callee args span closing = some e) : WellBound scope e := by
  obtain ⟨m,overload,rfl⟩ := Option.map_eq_some_iff.mp found
  have inTable : (callee.info.table callee.receiver.isStatic).findMethod callee.method.text
      (args.map Expr.ty) = some m := by
    unfold Scope.findOverload at overload
    split at overload
    · rename_i static
      rw [isStatic_eq] at static
      rw [static]
      exact overload
    · rename_i dynamic
      rw [isStatic_eq,Bool.not_eq_true] at dynamic
      rw [dynamic]
      exact overload
  refine .call receives.below arguments receives.provided ?_
  rw [(MemberTable.name_of_findMethod inTable).1]
  exact inTable

theorem ofIndex {receiver : Receiver (Expr σ)} {info : TypeInfo σ} {args : List (Expr σ)}
    {span closing : Span} {e : Expr σ} (receives : Receives scope receiver info)
    (dynamic : receiver.isStatic = false) (arguments : ∀ arg ∈ args, WellBound scope arg)
    (found : Scope.index? receiver info args span closing = some e) : WellBound scope e := by
  obtain ⟨ix,isIndexer,rfl⟩ := Option.map_eq_some_iff.mp found
  exact .index receives.below arguments dynamic receives.provided isIndexer

theorem ofReads {room : Nat} {part : Part σ} {tokens : List Token} {next : Token}
    (reads : Reads scope room part tokens next) : part.Keeps (WellBound scope) := by
  induction reads with
  | literal => exact .literal
  | group _ _ _ _ inside suffixes => exact suffixes (inside.withSpan _)
  | unary _ _ typed inside => exact inside.bindUnary typed
  | bracket _ provided _ found inside =>
    obtain ⟨receives,dynamic⟩ := indexed (fun _ same => by cases same) provided
    exact ofIndex receives dynamic inside found
  | name _ named => exact named fun _ same => by cases same
  | member _ _ _ found => exact fun below => members below found
  | indexed _ _ walked provided _ found inside =>
    intro below
    have bound := members below walked
    obtain ⟨receives,dynamic⟩ := indexed (fun _ same => by cases same; exact bound) provided
    exact ofIndex receives dynamic inside found
  | called _ _ resolved _ found inside => exact fun below => ofCall (callee below resolved) inside found
  | noArguments => intro _ none; cases none
  | someArguments _ _ inside => exact inside
  | last _ _ _ inside => intro e present; cases List.mem_singleton.mp present; exact inside
  | more _ _ _ inside rest =>
    intro e present
    rcases List.mem_cons.mp present with rfl | later
    · exact inside
    · exact rest e later
  | unsuffixed => exact id
  | suffix _ _ _ named rest => exact fun below => rest (named fun _ same => by cases same; exact below)
  | operand _ _ first suffixes => exact suffixes first
  | layer _ _ left chain => exact chain left
  | unchained => exact id
  | link _ _ _ typed _ right rest => exact fun below => rest (bindBinary below right typed)

end WellBound
end TypedFormula
