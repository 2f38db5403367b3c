import TypedFormula.Proofs.RoundTrip
import TypedFormula.Proofs.TokenRows

namespace TypedFormula

open Text

variable {σ : Type}

theorem ahead_append (tokens others : List Token) (next : Token) :
    ahead (tokens ++ others) next = ahead tokens (ahead others next) := by
  cases tokens <;> rfl

theorem Span.union_ordered {a b : Span} (starts : a.start ≤ b.start) (stops : a.stop ≤ b.stop) :
    a.union b = ⟨a.start,b.stop⟩ := by
  rw [union,Nat.min_eq_left starts,Nat.max_eq_right stops]

theorem Span.ends {span : Span} {a b : Nat} (is : span = ⟨a,b⟩) : span.start = a ∧ span.stop = b := by
  rw [is]
  exact ⟨rfl,rfl⟩

namespace Expr

-- A node takes some bytes, and the nodes directly below it lie one behind the other in them.
structure Placed (boundary : Nat → Prop) (e : Expr σ) : Prop where
  fills : e.span.Fills boundary
  below : ∃ a b, e.span.start ≤ a ∧ b ≤ e.span.stop ∧ Row Expr.span a e.children b

def Nested (boundary : Nat → Prop) (e : Expr σ) : Prop := ∀ node ∈ e.nodes, node.Placed boundary

variable {boundary : Nat → Prop} {e x y : Expr σ}

theorem nested_iff : e.Nested boundary ↔ e.Placed boundary ∧ ∀ child ∈ e.children, child.Nested boundary :=
  forall_nodes_iff e

theorem Nested.placed (nested : e.Nested boundary) : e.Placed boundary := (nested_iff.mp nested).1

theorem Nested.inside (nested : e.Nested boundary) :
    ∀ node ∈ e.nodes, e.span.start ≤ node.span.start ∧ node.span.stop ≤ e.span.stop := by
  induction e using children_induction with
  | step e ih =>
    obtain ⟨⟨_,a,b,first,last,row⟩,below⟩ := nested_iff.mp nested
    refine (forall_nodes_iff e).mpr ⟨⟨Nat.le_refl _,Nat.le_refl _⟩,fun child isChild node present => ?_⟩
    obtain ⟨starts,stops⟩ := row.within isChild
    obtain ⟨begins,ends⟩ := ih child isChild (below child isChild) node present
    omega

theorem Nested.withSpan (nested : e.Nested boundary) {span : Span} (fills : span.Fills boundary)
    (starts : span.start ≤ e.span.start) (stops : e.span.stop ≤ span.stop) : (e.withSpan span).Nested boundary := by
  obtain ⟨⟨_,a,b,first,last,row⟩,below⟩ := nested_iff.mp nested
  rw [nested_iff,children_withSpan]
  refine ⟨⟨by rw [span_withSpan]; exact fills,a,b,?_,?_,by rw [children_withSpan]; exact row⟩,below⟩
  · rw [span_withSpan]
    exact Nat.le_trans starts first
  · rw [span_withSpan]
    exact Nat.le_trans last stops

theorem nested_leaf (fills : e.span.Fills boundary) (leaf : e.children = []) : e.Nested boundary := by
  rw [nested_iff,leaf]
  refine ⟨⟨fills,_,_,Nat.le_refl _,Nat.le_of_lt fills.filled,?_⟩,List.forall_mem_nil _⟩
  rw [leaf]
  rfl

theorem nested_one {a b : Nat} (span : e.span = ⟨a,b⟩) (one : e.children = [x]) (nested : x.Nested boundary)
    (starts : boundary a) (stops : boundary b) (first : a ≤ x.span.start) (last : x.span.stop ≤ b) :
    e.Nested boundary := by
  have filled := nested.placed.fills.filled
  rw [nested_iff,one]
  refine ⟨⟨?_,?_⟩,List.forall_mem_singleton.mpr nested⟩
  · rw [span]
    exact ⟨show a < b by omega,starts,stops⟩
  · rw [span,one]
    exact ⟨_,_,first,last,Nat.le_refl _,Nat.le_of_lt filled,rfl⟩

theorem nested_two (span : e.span = ⟨x.span.start,y.span.stop⟩) (two : e.children = [x,y])
    (left : x.Nested boundary) (right : y.Nested boundary) (apart : x.span.stop ≤ y.span.start) :
    e.Nested boundary := by
  have one := left.placed.fills
  have other := right.placed.fills
  have filled := one.filled
  have filled' := other.filled
  rw [nested_iff,two]
  refine ⟨⟨?_,?_⟩,?_⟩
  · rw [span]
    exact ⟨show x.span.start < y.span.stop by omega,one.starts,other.stops⟩
  · rw [span,two]
    exact ⟨_,_,Nat.le_refl _,Nat.le_refl _,Nat.le_refl _,Nat.le_of_lt filled,apart,Nat.le_of_lt filled',rfl⟩
  · exact List.forall_mem_cons.mpr ⟨left,List.forall_mem_singleton.mpr right⟩

end Expr

variable {boundary : Nat → Prop} {scope : Scope σ}

open TypedFormula.Expr

theorem nested_instanceMember {x e : Expr σ} {segment : Segment} (nested : x.Nested boundary)
    (behind : x.span.stop ≤ segment.span.start) (ordered : segment.span.start ≤ segment.span.stop)
    (stops : boundary segment.span.stop) (found : scope.instanceMember? x segment = some e) :
    e.Nested boundary ∧ e.span = ⟨x.span.start,segment.span.stop⟩ := by
  obtain ⟨m,_,rfl⟩ := Option.map_eq_some_iff.mp found
  have fills := nested.placed.fills
  have filled := fills.filled
  have span : x.span.union segment.span = ⟨x.span.start,segment.span.stop⟩ :=
    Span.union_ordered (by omega) (by omega)
  exact ⟨nested_one span rfl nested fills.starts stops (Nat.le_refl _) (by omega),span⟩

theorem nested_instanceMembers {x e : Expr σ} {segments : List Segment} {b : Nat} (nested : x.Nested boundary)
    (row : Row Segment.span x.span.stop segments b) (places : ∀ segment ∈ segments, boundary segment.span.stop)
    (found : scope.instanceMembers? x segments = some e) : e.Nested boundary ∧ e.span = ⟨x.span.start,b⟩ := by
  induction segments generalizing x with
  | nil =>
    cases found
    cases row
    exact ⟨nested,rfl⟩
  | cons segment rest ih =>
    obtain ⟨behind,ordered,row⟩ := row
    obtain ⟨stops,others⟩ := List.forall_mem_cons.mp places
    obtain ⟨y,one,more⟩ := Option.bind_eq_some_iff.mp found
    obtain ⟨here,span⟩ := nested_instanceMember nested behind ordered stops one
    obtain ⟨there,whole⟩ := ih here (by rw [span]; exact row) others more
    exact ⟨there,by rw [whole,span]⟩

theorem nested_root {name : DottedName} {a b : Nat} {e : Expr σ} {rest : List Segment}
    (stands : name.Stands boundary a b) (found : scope.root? name = some (e,rest)) :
    e.Nested boundary ∧ e.span.start = a ∧ Row Segment.span e.span.stop rest b ∧
      ∀ segment ∈ rest, boundary segment.span.stop := by
  obtain ⟨⟨_,_,row⟩,places,starts,filled⟩ := stands
  obtain ⟨first,others⟩ := List.forall_mem_cons.mp places
  unfold Scope.root? at found
  split at found
  · cases found
    exact ⟨nested_leaf ⟨filled,first.1,first.2⟩ rfl,starts,row,fun segment present => (others segment present).2⟩
  · split at found
    · rename_i info type segment behind longest
      obtain ⟨x,static,same⟩ := Option.map_eq_some_iff.mp found
      cases same
      obtain ⟨m,_,rfl⟩ := Option.map_eq_some_iff.mp static
      have split := longestType_split longest
      obtain ⟨same,split⟩ := List.cons.inj split
      rw [split] at row
      obtain ⟨n,front,between,ordered,back⟩ := Row.append_iff.mp row
      have inside : ∀ other ∈ segment :: rest, boundary other.span.stop := fun other present =>
        (others other (by rw [split]; exact List.mem_append_right _ present)).2
      have reaches := front.le
      refine ⟨nested_leaf ⟨?_,?_,inside _ List.mem_cons_self⟩ rfl,by rw [← starts,same]; rfl,back,
        fun other present => inside other (List.mem_cons_of_mem _ present)⟩
      · change type.first.span.start < segment.span.stop
        rw [← same]
        omega
      · change boundary type.first.span.start
        rw [← same]
        exact first.1
    · cases found

-- Where a name starts that may go on from a tree.
def onsetOf (target : Option (Expr σ)) (start : Nat) : Nat :=
  match target with
  | some x => x.span.start
  | none => start

def InFront (boundary : Nat → Prop) (target : Option (Expr σ)) (a : Nat) : Prop :=
  ∀ x, target = some x → x.Nested boundary ∧ x.span.stop ≤ a

theorem InFront.later {target : Option (Expr σ)} {a b : Nat} (front : InFront boundary target a) (le : a ≤ b) :
    InFront boundary target b :=
  fun x is => ⟨(front x is).1,Nat.le_trans (front x is).2 le⟩

theorem nested_members {name : DottedName} {a b : Nat} {target : Option (Expr σ)} {e : Expr σ}
    (stands : name.Stands boundary a b) (front : InFront boundary target a)
    (found : scope.members? name target = some e) : e.Nested boundary ∧ e.span = ⟨onsetOf target a,b⟩ := by
  cases target with
  | some x =>
    obtain ⟨nested,behind⟩ := front x rfl
    exact nested_instanceMembers nested (stands.row.widen behind) (fun segment present =>
      (stands.places segment present).2) found
  | none =>
    obtain ⟨⟨root,rest⟩,start,more⟩ := Option.bind_eq_some_iff.mp found
    obtain ⟨nested,starts,row,places⟩ := nested_root stands start
    rw [← starts]
    exact nested_instanceMembers nested row places more

theorem nested_unary {op : UnaryOp} {span : Span} {operand e : Expr σ} (sign : span.Fills boundary)
    (nested : operand.Nested boundary) (behind : span.stop ≤ operand.span.start)
    (typed : bindUnary? op span operand = some e) : e.Nested boundary ∧ e.span = ⟨span.start,operand.span.stop⟩ := by
  obtain ⟨ty,_,rfl⟩ := Option.map_eq_some_iff.mp typed
  have signed := sign.filled
  have fills := nested.placed.fills
  have filled := fills.filled
  have union : span.union operand.span = ⟨span.start,operand.span.stop⟩ := Span.union_ordered (by omega) (by omega)
  exact ⟨nested_one union rfl nested sign.starts fills.stops (by omega) (Nat.le_refl _),union⟩

theorem nested_binary {op : BinaryOp} {x y e : Expr σ} (left : x.Nested boundary) (right : y.Nested boundary)
    (apart : x.span.stop ≤ y.span.start) (typed : bindBinary? op x y = some e) :
    e.Nested boundary ∧ e.span = ⟨x.span.start,y.span.stop⟩ := by
  obtain ⟨ty,_,rfl⟩ := Option.map_eq_some_iff.mp typed
  have filled := left.placed.fills.filled
  have filled' := right.placed.fills.filled
  have union : x.span.union y.span = ⟨x.span.start,y.span.stop⟩ := Span.union_ordered (by omega) (by omega)
  exact ⟨nested_two union rfl left right apart,union⟩

theorem nested_group {e : Expr σ} {opening closing : Span} (opens : opening.Fills boundary)
    (closes : closing.Fills boundary) (nested : e.Nested boundary) (behind : opening.stop ≤ e.span.start)
    (before : e.span.stop ≤ closing.start) :
    (e.withSpan (opening.union closing)).Nested boundary ∧
      (e.withSpan (opening.union closing)).span = ⟨opening.start,closing.stop⟩ := by
  have opened := opens.filled
  have closed := closes.filled
  have filled := nested.placed.fills.filled
  have union : opening.union closing = ⟨opening.start,closing.stop⟩ := Span.union_ordered (by omega) (by omega)
  rw [union]
  have fills : (⟨opening.start,closing.stop⟩ : Span).Fills boundary :=
    ⟨show opening.start < closing.stop by omega,opens.starts,closes.stops⟩
  have starts : opening.start ≤ e.span.start := by omega
  have stops : e.span.stop ≤ closing.stop := by omega
  exact ⟨nested.withSpan fills starts stops,span_withSpan _ _⟩

-- What a receiver covers in front of the arguments, from byte `a` to byte `b` at most; one that is no tree
-- leaves it to the name or bracket.
def Receiver.Covers (boundary : Nat → Prop) (span : Span) (a b : Nat) : Receiver (Expr σ) → Prop
  | .value x => x.Nested boundary ∧ x.span.start = a ∧ x.span.stop ≤ b
  | _ => boundary a ∧ span.start = a

-- The arguments of a call or an indexer and what closes them, between two bytes.
structure Enclosed (boundary : Nat → Prop) (a b : Nat) (args : List (Expr σ)) (closing : Span) : Prop where
  nested : ∀ arg ∈ args, arg.Nested boundary
  row : ∃ m n, a ≤ m ∧ n ≤ closing.start ∧ Row Expr.span m args n
  fills : closing.Fills boundary
  stops : closing.stop = b

theorem nested_access {e : Expr σ} {receiver : Receiver (Expr σ)} {args : List (Expr σ)} {span closing : Span}
    {a b c : Nat} (is : e.span = (Scope.startOf receiver span).union closing)
    (children : e.children = receiver.target?.toList ++ args) (covers : receiver.Covers boundary span a b)
    (enclosed : Enclosed boundary b c args closing) (le : a ≤ b) (within : span.stop ≤ c) :
    e.Nested boundary ∧ e.span = ⟨a,c⟩ := by
  obtain ⟨nested,⟨m,n,first,last,row⟩,fills,rfl⟩ := enclosed
  have filled := fills.filled
  have reaches := row.le
  have starts : boundary a ∧ (Scope.startOf receiver span).start = a ∧
      (Scope.startOf receiver span).stop ≤ closing.stop := by
    cases receiver with
    | context | type => exact ⟨covers.1,covers.2,within⟩
    | value x =>
      obtain ⟨below,rfl,behind⟩ := covers
      exact ⟨below.placed.fills.starts,rfl,show x.span.stop ≤ _ by omega⟩
  obtain ⟨onset,begins,ends⟩ := starts
  have span : e.span = ⟨a,closing.stop⟩ := by
    rw [is,Span.union_ordered (by omega) (by omega),begins]
  refine ⟨nested_iff.mpr ⟨⟨?_,?_⟩,?_⟩,span⟩
  · rw [span]
    exact ⟨show a < closing.stop by omega,onset,fills.stops⟩
  · rw [children,span]
    cases receiver with
    | context | type => exact ⟨m,n,show a ≤ m by omega,show n ≤ closing.stop by omega,row⟩
    | value x =>
      obtain ⟨below,rfl,behind⟩ := covers
      have inner := below.placed.fills.filled
      refine ⟨x.span.start,?_⟩
      cases args with
      | nil =>
        have before : x.span.stop ≤ closing.stop := by omega
        exact ⟨x.span.stop,Nat.le_refl _,before,Nat.le_refl _,Nat.le_of_lt inner,rfl⟩
      | cons arg args =>
        have before : n ≤ closing.stop := by omega
        exact ⟨n,Nat.le_refl _,before,Nat.le_refl _,Nat.le_of_lt inner,row.widen (by omega)⟩
  · rw [children,List.forall_mem_append]
    refine ⟨?_,nested⟩
    cases receiver with
    | context | type => exact List.forall_mem_nil _
    | value x => exact List.forall_mem_singleton.mpr covers.1

theorem nested_index {e : Expr σ} {receiver : Receiver (Expr σ)} {info : TypeInfo σ} {args : List (Expr σ)}
    {span closing : Span} {a b c : Nat} (covers : receiver.Covers boundary span a b)
    (enclosed : Enclosed boundary b c args closing) (le : a ≤ b) (within : span.stop ≤ c)
    (found : Scope.index? receiver info args span closing = some e) : e.Nested boundary ∧ e.span = ⟨a,c⟩ := by
  obtain ⟨ix,_,rfl⟩ := Option.map_eq_some_iff.mp found
  exact nested_access rfl rfl covers enclosed le within

theorem covers_callee {name : DottedName} {span : Span} {target : Option (Expr σ)} {callee : Scope.Callee σ}
    (stands : name.Stands boundary span.start span.stop) (front : InFront boundary target span.start)
    (found : scope.callee? name target = some callee) :
    callee.receiver.Covers boundary span (onsetOf target span.start) span.stop := by
  have starts : boundary span.start := stands.starts ▸ (stands.places _ List.mem_cons_self).1
  have ordered := stands.row.le
  have value : ∀ {y : Expr σ} {method : Segment}, scope.valueCallee? y method = some callee → y.Nested boundary →
      y.span.start = onsetOf target span.start → y.span.stop ≤ span.stop →
      callee.receiver.Covers boundary span (onsetOf target span.start) span.stop := by
    intro y method made nested begins ends
    obtain ⟨info,_,rfl⟩ := Option.map_eq_some_iff.mp made
    exact ⟨nested,begins,ends⟩
  unfold Scope.callee? at found
  cases split : name.splitLast? with
  | none =>
    rw [split] at found
    cases target with
    | some x =>
      obtain ⟨nested,behind⟩ := front x rfl
      exact value found nested rfl (Nat.le_trans behind ordered)
    | none =>
      obtain ⟨info,_,rfl⟩ := Option.map_eq_some_iff.mp found
      exact ⟨starts,rfl⟩
  | some cut =>
    obtain ⟨path,method⟩ := cut
    obtain ⟨m,inner,le⟩ := stands.splitLast split
    rw [split] at found
    have walked : ∀ {y : Expr σ}, scope.members? path target = some y → scope.valueCallee? y method = some callee →
        callee.receiver.Covers boundary span (onsetOf target span.start) span.stop := by
      intro y members made
      obtain ⟨nested,reach⟩ := nested_members inner front members
      exact value made nested (by rw [reach]) (by rw [reach]; exact le)
    cases target with
    | some x =>
      obtain ⟨y,members,made⟩ := Option.bind_eq_some_iff.mp found
      exact walked members made
    | none =>
      -- The parts in front of the method may be a type, which has no node.
      dsimp only at found
      split at found
      · cases found
        exact ⟨starts,rfl⟩
      · obtain ⟨y,members,made⟩ := Option.bind_eq_some_iff.mp found
        exact walked members made

theorem nested_call {name : DottedName} {span closing : Span} {target : Option (Expr σ)} {callee : Scope.Callee σ}
    {args : List (Expr σ)} {e : Expr σ} {c : Nat} (stands : name.Stands boundary span.start span.stop)
    (front : InFront boundary target span.start) (resolved : scope.callee? name target = some callee)
    (enclosed : Enclosed boundary span.stop c args closing) (within : span.stop ≤ c)
    (found : Scope.call? callee args span closing = some e) :
    e.Nested boundary ∧ e.span = ⟨onsetOf target span.start,c⟩ := by
  obtain ⟨m,_,rfl⟩ := Option.map_eq_some_iff.mp found
  refine nested_access rfl rfl (covers_callee stands front resolved) enclosed ?_ within
  have ordered := stands.row.le
  cases target with
  | none => exact ordered
  | some x =>
    obtain ⟨nested,behind⟩ := front x rfl
    have := nested.placed.fills.filled
    exact show x.span.start ≤ span.stop by omega

-- How far the trees of a part reach that is read from a row of tokens: from its first token, or from the
-- tree in front of it, to the end of the row.
def Part.Reaches (boundary : Nat → Prop) (a start b : Nat) : Part σ → Prop
  | .primary e => e.Nested boundary ∧ e.span = ⟨start,b⟩ ∧ a ≤ start
  | .layered _ e => e.Nested boundary ∧ e.span = ⟨start,b⟩ ∧ a ≤ start
  | .suffixed x e => x.Nested boundary → x.span.stop = a → e.Nested boundary ∧ e.span = ⟨x.span.start,b⟩
  | .chained _ x e => x.Nested boundary → x.span.stop = a → e.Nested boundary ∧ e.span = ⟨x.span.start,b⟩
  | .named target e => InFront boundary target a →
    e.Nested boundary ∧ e.span = ⟨onsetOf target start,b⟩ ∧ a ≤ start
  | .separated _ es => (∀ e ∈ es, e.Nested boundary) ∧ Row Expr.span a es b
  | .arguments _ es closing => Enclosed boundary a b es closing

theorem Reads.reaches {room : Nat} {part : Part σ} {tokens : List Token} {next : Token} {a b : Nat}
    (reads : Reads scope room part tokens next) (row : Row Token.span a tokens b)
    (stands : ∀ token ∈ tokens, token.Stands boundary) :
    part.Reaches boundary a (ahead tokens next).span.start b := by
  induction reads generalizing a b with
  | @literal room token value next is =>
    obtain ⟨starts,_,rfl⟩ := row
    exact ⟨nested_leaf (stands _ List.mem_cons_self).fills rfl,rfl,starts⟩
  | @group room opening tokens e closing more whole next opens inside closes suffixes insideIH suffixesIH =>
    rw [List.cons_append] at row stands
    obtain ⟨starts,_,row⟩ := row
    obtain ⟨m,first,behind,_,last⟩ := Row.append_iff.mp row
    obtain ⟨open',others⟩ := List.forall_mem_cons.mp stands
    obtain ⟨within,others⟩ := List.forall_mem_append.mp others
    obtain ⟨close',others⟩ := List.forall_mem_cons.mp others
    obtain ⟨nested,span,below⟩ := insideIH first within
    obtain ⟨begins,ends⟩ := Span.ends span
    -- What follows the group goes on from both parentheses, not from the expression between them.
    obtain ⟨grouped,whole⟩ := nested_group open'.fills close'.fills nested (by omega) (by omega)
    obtain ⟨all,reach⟩ := suffixesIH last others grouped (by rw [whole])
    exact ⟨all,by rw [reach,whole]; rfl,starts⟩
  | @unary room token op tokens operand e next is inside typed ih =>
    obtain ⟨starts,_,row⟩ := row
    obtain ⟨sign,others⟩ := List.forall_mem_cons.mp stands
    obtain ⟨nested,span,behind⟩ := ih row others
    obtain ⟨begins,ends⟩ := Span.ends span
    obtain ⟨all,reach⟩ := nested_unary sign.fills nested (by omega) typed
    exact ⟨all,by rw [reach,ends]; rfl,starts⟩
  | @bracket room token receiver info args closing tokens e next is provided inside found ih =>
    obtain ⟨starts,_,further⟩ := row
    obtain ⟨bracket,_⟩ := List.forall_mem_cons.mp stands
    have opened := bracket.fills
    have enclosed := ih (a := token.span.start) ⟨Nat.le_refl _,Nat.le_of_lt opened.filled,further⟩ stands
    obtain ⟨_,_,same⟩ := Option.map_eq_some_iff.mp provided
    cases same
    have covers : (Receiver.context : Receiver (Expr σ)).Covers boundary token.span token.span.start token.span.start :=
      ⟨opened.starts,rfl⟩
    obtain ⟨all,reach⟩ := nested_index covers enclosed (Nat.le_refl _) further.le found
    exact ⟨all,reach,starts⟩
  | @name room tokens e next named ih =>
    obtain ⟨nested,span,starts⟩ := ih row stands fun _ none => by cases none
    exact ⟨nested,span,starts⟩
  | @member room token spelling target e next is noCall noIndex found =>
    obtain ⟨starts,_,rfl⟩ := row
    intro front
    have name := (stands _ List.mem_cons_self).parts is
    obtain ⟨nested,span⟩ := nested_members name (front.later starts) found
    exact ⟨nested,span,starts⟩
  | @indexed room token spelling target x receiver info opening tokens args closing e next is opens walked provided
      inside found ih =>
    obtain ⟨starts,ordered,row⟩ := row
    obtain ⟨word,others⟩ := List.forall_mem_cons.mp stands
    have enclosed := ih row others
    intro front
    obtain ⟨nested,span⟩ := nested_members (word.parts is) (front.later starts) walked
    obtain ⟨begins,ends⟩ := Span.ends span
    obtain ⟨_,_,same⟩ := Option.map_eq_some_iff.mp provided
    cases same
    have filled := nested.placed.fills.filled
    -- The name in front of the bracket is a tree by now, which may start before the name.
    have covers : (Receiver.value x).Covers boundary token.span (onsetOf target token.span.start) token.span.stop :=
      ⟨nested,begins,Nat.le_of_eq ends⟩
    obtain ⟨all,reach⟩ := nested_index covers enclosed (by omega) row.le found
    exact ⟨all,reach,starts⟩
  | @called room token spelling target callee opening tokens args closing e next is opens resolved inside found ih =>
    obtain ⟨starts,ordered,row⟩ := row
    obtain ⟨word,others⟩ := List.forall_mem_cons.mp stands
    have enclosed := ih row others
    intro front
    obtain ⟨nested,span⟩ := nested_call (word.parts is) (front.later starts) resolved enclosed row.le found
    exact ⟨nested,span,starts⟩
  | @noArguments room opening closing close next closes =>
    obtain ⟨starts,ordered,behind,ordered',rfl⟩ := row
    refine ⟨List.forall_mem_nil _,⟨a,a,Nat.le_refl _,by omega,rfl⟩,(stands closing (by simp)).fills,rfl⟩
  | @someArguments room opening tokens es closing close next inside closes ih =>
    rw [List.cons_append] at row stands
    obtain ⟨starts,ordered,row⟩ := row
    obtain ⟨m,front,between,_,rfl⟩ := Row.append_iff.mp row
    obtain ⟨_,others⟩ := List.forall_mem_cons.mp stands
    obtain ⟨within,last⟩ := List.forall_mem_append.mp others
    obtain ⟨nested,args⟩ := ih front within
    exact ⟨nested,⟨_,_,by omega,between,args⟩,(List.forall_mem_singleton.mp last).fills,rfl⟩
  | @last room tokens e close next inside closes closed ih =>
    obtain ⟨nested,span,starts⟩ := ih row stands
    obtain ⟨begins,ends⟩ := Span.ends span
    have filled := nested.placed.fills.filled
    exact ⟨List.forall_mem_singleton.mpr nested,by omega,by omega,ends⟩
  | @more room tokens e es comma others close next inside is rest insideIH restIH =>
    obtain ⟨m,first,behind,ordered,last⟩ := Row.append_iff.mp row
    obtain ⟨within,further⟩ := List.forall_mem_append.mp stands
    obtain ⟨_,further⟩ := List.forall_mem_cons.mp further
    obtain ⟨nested,span,starts⟩ := insideIH first within
    obtain ⟨begins,ends⟩ := Span.ends span
    have filled := nested.placed.fills.filled
    obtain ⟨all,args⟩ := restIH last further
    obtain ⟨arg,more,rfl⟩ : ∃ arg more, es = arg :: more := by cases rest <;> exact ⟨_,_,rfl⟩
    exact ⟨List.forall_mem_cons.mpr ⟨nested,all⟩,by omega,by omega,args.widen (by omega)⟩
  | unsuffixed | unchained =>
    cases row
    intro nested ends
    exact ⟨nested,by rw [← ends]⟩
  | @suffix room dot tokens x y others e next is named rest namedIH restIH =>
    rw [List.cons_append] at row stands
    obtain ⟨starts,ordered,row⟩ := row
    obtain ⟨m,first,last⟩ := Row.append_iff.mp row
    obtain ⟨_,stands⟩ := List.forall_mem_cons.mp stands
    obtain ⟨within,further⟩ := List.forall_mem_append.mp stands
    intro nested ends
    have front : InFront boundary (some x) dot.span.stop := by
      rintro _ ⟨⟩
      exact ⟨nested,by omega⟩
    obtain ⟨below,span,_⟩ := namedIH first within front
    obtain ⟨all,reach⟩ := restIH last further below (by rw [span])
    exact ⟨all,by rw [reach,span]; rfl⟩
  | @operand room tokens x others e next first suffixes firstIH suffixesIH =>
    obtain ⟨m,front,back⟩ := Row.append_iff.mp row
    obtain ⟨within,further⟩ := List.forall_mem_append.mp stands
    obtain ⟨nested,span,starts⟩ := firstIH front within
    obtain ⟨all,reach⟩ := suffixesIH back further nested (by rw [span])
    rw [ahead_append]
    exact ⟨all,by rw [reach,span],starts⟩
  | @layer room n tokens x others e next left chain leftIH chainIH =>
    obtain ⟨m,front,back⟩ := Row.append_iff.mp row
    obtain ⟨within,further⟩ := List.forall_mem_append.mp stands
    obtain ⟨nested,span,starts⟩ := leftIH front within
    obtain ⟨all,reach⟩ := chainIH back further nested (by rw [span])
    rw [ahead_append]
    exact ⟨all,by rw [reach,span],starts⟩
  | @link room n token op tokens x y z others e next is fits right typed rest rightIH restIH =>
    rw [List.cons_append] at row stands
    obtain ⟨starts,ordered,row⟩ := row
    obtain ⟨m,front,back⟩ := Row.append_iff.mp row
    obtain ⟨_,stands⟩ := List.forall_mem_cons.mp stands
    obtain ⟨within,further⟩ := List.forall_mem_append.mp stands
    obtain ⟨nested,span,behind⟩ := rightIH front within
    obtain ⟨begins,ends⟩ := Span.ends span
    intro nestedLeft meets
    obtain ⟨both,reach⟩ := nested_binary nestedLeft nested (by omega) typed
    obtain ⟨all,whole⟩ := restIH back further both (by rw [reach]; exact ends)
    exact ⟨all,by rw [whole,reach]⟩

structure Expr.WellPlaced (text : List Char) (node : Expr σ) : Prop where
  filled : node.span.start < node.span.stop
  inside : node.span.stop ≤ byteLength text
  starts : IsBoundary text node.span.start
  stops : IsBoundary text node.span.stop
  -- The nodes directly below lie inside, one behind the other.
  within : ∀ child ∈ node.children, node.span.start ≤ child.span.start ∧ child.span.stop ≤ node.span.stop
  apart : node.children.Pairwise fun x y => x.span.stop ≤ y.span.start

theorem Expr.Placed.wellPlaced {text : List Char} {node : Expr σ} (placed : node.Placed (IsBoundary text)) :
    node.WellPlaced text := by
  obtain ⟨⟨filled,starts,stops⟩,a,b,first,last,row⟩ := placed
  obtain ⟨rest,splits⟩ := stops
  refine ⟨filled,Nat.le.intro splits.length,starts,⟨rest,splits⟩,?_,row.apart⟩
  intro child present
  obtain ⟨one,two⟩ := row.within present
  exact ⟨Nat.le_trans first one,Nat.le_trans two last⟩

theorem Parser.nested_of_parsed {scope : Scope σ} {limits : Limits} {text : String}
    (parsed : Parser.parse scope limits text = .ok e) : e.Nested (IsBoundary text.toList) ∧
    e.span.start = byteLength (text.toList.takeWhile isBlank) ∧
    Between text.toList e.span.start e.span.stop (trim text.toList) := by
  obtain ⟨_,⟨tokens,last,tokenized,reads⟩,_⟩ := Parser.parse_ok_iff.mp parsed
  have scans := (Lexer.tokenize_ok_iff _ _).mp tokenized
  obtain ⟨front,final,stop,_,_,split,row,stands,_⟩ := scans.row (splitsAt_zero _)
  obtain ⟨rfl,_⟩ := List.append_inj' split rfl
  obtain ⟨nested,span,_⟩ := reads.reaches row stands
  obtain ⟨begins,ends⟩ := Span.ends span
  have filled := nested.placed.fills.filled
  rw [begins,ends] at filled ⊢
  exact ⟨nested,scans.trimmed row filled⟩

-- In a parsed tree every node takes some bytes of the formula, and its operands, receiver and arguments lie
-- one behind the other in them; the root takes the formula without the blanks at its ends.
theorem Parser.spans_nested (scope : Scope σ) (limits : Limits) (text : String) (e : Expr σ)
    (parsed : Parser.parse scope limits text = .ok e) :
    (∀ node ∈ e.nodes, node.WellPlaced text.toList) ∧
    e.span.start = byteLength (text.toList.takeWhile isBlank) ∧
    Between text.toList e.span.start e.span.stop (trim text.toList) := by
  obtain ⟨nested,whole⟩ := nested_of_parsed parsed
  exact ⟨fun node present => (nested node present).wellPlaced,whole⟩

def paddedFormula : String := " \u00a0-(Inner.Size + 1).ToString().Length * Inner[2] . Inner.Size\n"

theorem Parser.padded_nested : ∃ e, Parser.parse Parser.boxScope {} paddedFormula = .ok e ∧
    (∀ node ∈ e.nodes, node.WellPlaced paddedFormula.toList) ∧ e.span.start = 3 ∧
    Between paddedFormula.toList e.span.start e.span.stop (trim paddedFormula.toList) := by
  obtain ⟨e,parsed⟩ : ∃ e, parse boxScope {} paddedFormula = .ok e := exists_ok (by decide +kernel)
  obtain ⟨placed,starts,whole⟩ := Parser.spans_nested _ _ _ e parsed
  have blanks : byteLength (paddedFormula.toList.takeWhile isBlank) = 3 := by decide +kernel
  exact ⟨e,parsed,placed,starts.trans blanks,whole⟩

end TypedFormula
