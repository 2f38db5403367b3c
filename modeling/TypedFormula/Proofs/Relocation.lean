import Mathlib.Order.MinMax
import TypedFormula.Proofs.Alike
import TypedFormula.Proofs.Readings

namespace TypedFormula

variable {σ : Type}

def Span.move (place : Nat → Nat) (span : Span) : Span := ⟨place span.start,place span.stop⟩

def Token.move (place : Nat → Nat) (token : Token) : Token := ⟨token.kind,token.span.move place⟩

def Segment.move (place : Nat → Nat) (segment : Segment) : Segment := ⟨segment.text,segment.span.move place⟩

def DottedName.move (place : Nat → Nat) (name : DottedName) : DottedName :=
  ⟨name.first.move place,name.others.map (Segment.move place)⟩

namespace Expr

mutual

@[simp] def move (place : Nat → Nat) : Expr σ → Expr σ
  | .literal value span => .literal value (span.move place)
  | .unary op operand ty span => .unary op (move place operand) ty (span.move place)
  | .binary op left right ty span => .binary op (move place left) (move place right) ty (span.move place)
  | .member receiver m span => .member (moveReceiver place receiver) m (span.move place)
  | .call receiver m args span => .call (moveReceiver place receiver) m (moveArgs place args) (span.move place)
  | .index receiver ix args span => .index (moveReceiver place receiver) ix (moveArgs place args) (span.move place)

@[simp] def moveReceiver (place : Nat → Nat) : Receiver (Expr σ) → Receiver (Expr σ)
  | .context => .context
  | .type name => .type name
  | .value target => .value (move place target)

def moveArgs (place : Nat → Nat) : List (Expr σ) → List (Expr σ)
  | [] => []
  | e :: es => move place e :: moveArgs place es

end

variable (place : Nat → Nat)

@[simp] theorem moveArgs_eq (args : List (Expr σ)) : moveArgs place args = args.map (move place) := by
  induction args with
  | nil => rfl
  | cons e es ih => rw [moveArgs,List.map_cons,ih]

@[simp] theorem span_move (e : Expr σ) : (e.move place).span = e.span.move place := by
  cases e <;> rfl

@[simp] theorem ty_move (e : Expr σ) : (e.move place).ty = e.ty := by
  cases e <;> rfl

theorem withSpan_move (e : Expr σ) (span : Span) :
    (e.withSpan span).move place = (e.move place).withSpan (span.move place) := by
  cases e <;> rfl

theorem types_move (args : List (Expr σ)) : (args.map (move place)).map ty = args.map ty := by
  rw [List.map_map]
  exact List.map_congr_left fun e _ => ty_move place e

theorem height_move (e : Expr σ) : (e.move place).height = e.height := by
  have receiver : ∀ r : Receiver (Expr σ), (∀ x, r = .value x → (x.move place).height = x.height) →
      receiverHeight (moveReceiver place r) = receiverHeight r := by
    intro r below
    cases r with
    | context | type => rfl
    | value x => exact below x rfl
  have list : ∀ args : List (Expr σ), (∀ x ∈ args, (x.move place).height = x.height) →
      listHeight (moveArgs place args) = listHeight args := by
    intro args below
    rw [listHeight_eq,listHeight_eq,moveArgs_eq,List.map_map]
    exact congrArg (List.foldr Nat.max 0) (List.map_congr_left below)
  induction e using Expr.induction with
  | literal => rfl
  | unary _ _ _ _ operand => exact congrArg (· + 1) operand
  | binary _ _ _ _ _ left right => rw [move,height,height,left,right]
  | member r _ _ below => rw [move,height,height,receiver r below]
  | call r _ args _ below others => rw [move,height,height,receiver r below,list args others]
  | index r _ args _ below others => rw [move,height,height,receiver r below,list args others]

end Expr

variable {place : Nat → Nat}

-- Order is kept, so the smallest span that covers two spans moves with them.
theorem Span.union_move (ordered : Monotone place) (a b : Span) :
    (a.union b).move place = (a.move place).union (b.move place) := by
  simp only [union,move,ordered.map_min,ordered.map_max]

namespace DottedName

theorem text_move (name : DottedName) : (name.move place).text = name.text := by
  simp [text,parts,move,Segment.move,Function.comp_def]

theorem splitLast_move (name : DottedName) : (name.move place).splitLast? =
    name.splitLast?.map fun cut => (cut.1.move place,cut.2.move place) := by
  obtain ⟨first,others⟩ := name
  cases others with
  | nil => rfl
  | cons second rest =>
    have front : ((second :: rest).map (Segment.move place)).dropLast =
        (second :: rest).dropLast.map (Segment.move place) := List.map_dropLast.symm
    have last : ((second :: rest).map (Segment.move place)).getLast (List.cons_ne_nil _ _) =
        ((second :: rest).getLast (List.cons_ne_nil _ _)).move place := List.getLast_map _
    exact congrArg some (Prod.ext (congrArg (DottedName.mk _) front) last)

theorem cuts_move (first : Segment) (others : List Segment) :
    cuts (first.move place) (others.map (Segment.move place)) =
      (cuts first others).map fun cut => (cut.1.move place,cut.2.1.move place,cut.2.2.map (Segment.move place)) := by
  induction others generalizing first with
  | nil => rfl
  | cons second rest ih =>
    simp only [List.map_cons,cuts,ih,List.map_append,List.map_map,Function.comp_def]
    rfl

end DottedName

namespace Scope

variable (scope : Scope σ)

theorem instanceMember_move (ordered : Monotone place) (x : Expr σ) (segment : Segment) :
    scope.instanceMember? (x.move place) (segment.move place) =
      (scope.instanceMember? x segment).map (Expr.move place) := by
  simp only [instanceMember?,Expr.ty_move,Expr.span_move,Option.map_map,Function.comp_def,Expr.move,
    Expr.moveReceiver,Span.union_move ordered]
  rfl

theorem instanceMembers_move (ordered : Monotone place) (x : Expr σ) (segments : List Segment) :
    scope.instanceMembers? (x.move place) (segments.map (Segment.move place)) =
      (scope.instanceMembers? x segments).map (Expr.move place) := by
  induction segments generalizing x with
  | nil => rfl
  | cons segment rest ih =>
    simp only [List.map_cons,instanceMembers?,scope.instanceMember_move ordered,Option.bind_map,
      Option.map_bind,Function.comp_def,ih]

theorem root_move (name : DottedName) : scope.root? (name.move place) =
    (scope.root? name).map fun found => (found.1.move place,found.2.map (Segment.move place)) := by
  have longest : scope.longestType? (name.move place) = (scope.longestType? name).map fun found =>
      (found.1,found.2.1.move place,found.2.2.1.move place,found.2.2.2.map (Segment.move place)) := by
    unfold longestType?
    rw [show (name.move place).first = name.first.move place from rfl,
      show (name.move place).others = name.others.map (Segment.move place) from rfl,DottedName.cuts_move,
      List.findSome?_map,List.map_findSome?]
    refine congrArg (List.findSome? · _) (funext fun cut => ?_)
    simp only [Function.comp_def,DottedName.text_move,Option.map_map]
  unfold root?
  rw [longest]
  rw [show (name.move place).first.text = name.first.text from rfl]
  cases scope.contextMember? name.first.text with
  | some found => rfl
  | none =>
    cases scope.longestType? name with
    | none => rfl
    | some found =>
      simp only [Option.map_some,staticMember?,Option.map_map,Function.comp_def,DottedName.text_move]
      rfl

theorem members_move (ordered : Monotone place) (name : DottedName) (target : Option (Expr σ)) :
    scope.members? (name.move place) (target.map (Expr.move place)) =
      (scope.members? name target).map (Expr.move place) := by
  cases target with
  | some x => exact scope.instanceMembers_move ordered x name.parts
  | none =>
    simp only [members?,Option.map_none,scope.root_move,Option.bind_map,Option.map_bind,Function.comp_def,
      scope.instanceMembers_move ordered]

theorem provider_move (receiver : Receiver (Expr σ)) :
    scope.provider? (Expr.moveReceiver place receiver) = scope.provider? receiver := by
  cases receiver with
  | context | type => rfl
  | value x => simp only [Expr.moveReceiver,provider?,Expr.ty_move]

def Callee.move (place : Nat → Nat) (callee : Callee σ) : Callee σ :=
  ⟨Expr.moveReceiver place callee.receiver,callee.info,callee.method.move place⟩

theorem valueCallee_move (x : Expr σ) (method : Segment) :
    scope.valueCallee? (x.move place) (method.move place) = (scope.valueCallee? x method).map (Callee.move place) := by
  simp only [valueCallee?,Expr.ty_move,Option.map_map]
  rfl

theorem callee_move (ordered : Monotone place) (name : DottedName) (target : Option (Expr σ)) :
    scope.callee? (name.move place) (target.map (Expr.move place)) =
      (scope.callee? name target).map (Callee.move place) := by
  unfold callee?
  rw [DottedName.splitLast_move]
  cases name.splitLast? with
  | none =>
    cases target with
    | some x => exact scope.valueCallee_move x name.first
    | none =>
      simp only [Option.map_none,contextCallee?,Option.map_map]
      rfl
  | some cut =>
    have walked : (scope.members? (cut.1.move place) (target.map (Expr.move place))).bind
        (scope.valueCallee? · (cut.2.move place)) =
        ((scope.members? cut.1 target).bind (scope.valueCallee? · cut.2)).map (Callee.move place) := by
      simp only [scope.members_move ordered,Option.bind_map,Option.map_bind,Function.comp_def,
        scope.valueCallee_move]
    cases target with
    | some x => exact walked
    | none =>
      simp only [Option.map_some,Option.map_none,DottedName.text_move] at walked ⊢
      cases scope.registry.get? cut.1.text with
      | some info => rfl
      | none => exact walked

theorem startOf_move (receiver : Receiver (Expr σ)) (span : Span) :
    startOf (Expr.moveReceiver place receiver) (span.move place) = (startOf receiver span).move place := by
  cases receiver with
  | context | type => rfl
  | value x => exact Expr.span_move place x

theorem call_move (ordered : Monotone place) (callee : Callee σ) (args : List (Expr σ)) (span closing : Span) :
    call? (callee.move place) (args.map (Expr.move place)) (span.move place) (closing.move place) =
      (call? callee args span closing).map (Expr.move place) := by
  have static : (callee.move place).isStatic = callee.isStatic := by
    obtain ⟨receiver,_,_⟩ := callee
    cases receiver <;> rfl
  have overload : ∀ types, findOverload (callee.move place) types = findOverload callee types := by
    intro types
    unfold findOverload
    rw [static]
    rfl
  have span : (startOf (callee.move place).receiver (span.move place)).union (closing.move place) =
      ((startOf callee.receiver span).union closing).move place := by
    rw [Span.union_move ordered,← startOf_move]
    rfl
  simp only [call?,Expr.types_move,overload,Option.map_map,span,Function.comp_def,Expr.move,Expr.moveArgs_eq]
  rfl

theorem index_move (ordered : Monotone place) (receiver : Receiver (Expr σ)) (info : TypeInfo σ)
    (args : List (Expr σ)) (span closing : Span) :
    index? (Expr.moveReceiver place receiver) info (args.map (Expr.move place)) (span.move place) (closing.move place) =
      (index? receiver info args span closing).map (Expr.move place) := by
  simp only [index?,Expr.types_move,Option.map_map,startOf_move,Function.comp_def,Expr.move,
    Expr.moveArgs_eq,Span.union_move ordered]

theorem indexed_move (target : Option (Expr σ)) : scope.indexed? (target.map (Expr.move place)) =
    (scope.indexed? target).map fun found => (Expr.moveReceiver place found.1,found.2) := by
  cases target with
  | none =>
    simp only [indexed?,Option.map_none,Option.map_map]
    rfl
  | some x =>
    have provider : scope.provider? (.value (x.move place)) = scope.provider? (.value x) := scope.provider_move (.value x)
    simp only [indexed?,Option.map_some,Option.map_map,provider]
    rfl

end Scope

theorem bindUnary_move (ordered : Monotone place) (op : UnaryOp) (span : Span) (operand : Expr σ) :
    bindUnary? op (span.move place) (operand.move place) = (bindUnary? op span operand).map (Expr.move place) := by
  simp only [bindUnary?,Expr.ty_move,Expr.span_move,Option.map_map,Function.comp_def,Expr.move,
    Span.union_move ordered]

theorem bindBinary_move (ordered : Monotone place) (op : BinaryOp) (left right : Expr σ) :
    bindBinary? op (left.move place) (right.move place) = (bindBinary? op left right).map (Expr.move place) := by
  simp only [bindBinary?,Expr.ty_move,Expr.span_move,Option.map_map,Function.comp_def,Expr.move,
    Span.union_move ordered]

def Part.move (place : Nat → Nat) : Part σ → Part σ
  | .primary e => .primary (e.move place)
  | .suffixed x e => .suffixed (x.move place) (e.move place)
  | .named target e => .named (target.map (Expr.move place)) (e.move place)
  | .layered n e => .layered n (e.move place)
  | .chained n x e => .chained n (x.move place) (e.move place)
  | .separated close es => .separated close (es.map (Expr.move place))
  | .arguments close es closing => .arguments close (es.map (Expr.move place)) (closing.move place)

def Token.Moves (place : Nat → Nat) (token : Token) : Prop := ∀ spelling, token.kind = .name spelling →
  DottedName.ofText spelling (place token.span.start) = (DottedName.ofText spelling token.span.start).move place

theorem ahead_move (tokens : List Token) (next : Token) :
    ahead (tokens.map (Token.move place)) (next.move place) = (ahead tokens next).move place := by
  cases tokens <;> rfl

theorem Reads.move {scope : Scope σ} {room : Nat} {part : Part σ} {tokens : List Token} {next : Token}
    (reads : Reads scope room part tokens next) (ordered : Monotone place)
    (names : ∀ token ∈ tokens, token.Moves place) :
    Reads scope room (part.move place) (tokens.map (Token.move place)) (next.move place) := by
  induction reads with
  | @literal room token value next is =>
    have moved : (token.move place).kind.literal? = some value := is
    exact .literal moved
  | group opens inside closes suffixes insideIH suffixesIH =>
    rw [List.cons_append] at names
    obtain ⟨_,names⟩ := List.forall_mem_cons.mp names
    obtain ⟨within,names⟩ := List.forall_mem_append.mp names
    obtain ⟨_,behind⟩ := List.forall_mem_cons.mp names
    have more := suffixesIH behind
    -- The parentheses widen the tree, and the wider span moves too since places stay in order.
    rw [Part.move,Expr.withSpan_move,Span.union_move ordered] at more
    simp only [List.map_append,List.map_cons]
    exact .group opens (insideIH within) closes more
  | @unary room token op tokens operand e next is inside typed ih =>
    refine .unary is (ih fun token present => names token (List.mem_cons_of_mem _ present)) ?_
    rw [show (token.move place).span = token.span.move place from rfl,bindUnary_move ordered,typed]
    rfl
  | @bracket room token receiver info args closing tokens e next is provided inside found ih =>
    have provided' : scope.indexed? none = some (Expr.moveReceiver place receiver,info) := by
      rw [show (none : Option (Expr σ)) = none.map (Expr.move place) from rfl,scope.indexed_move,provided]
      rfl
    have found' := Scope.index_move ordered receiver info args token.span closing
    rw [found] at found'
    exact .bracket is provided' (ih names) found'
  | name named ih => exact .name (ih names)
  | @member room token spelling target e next is noCall noIndex found =>
    have moves := names _ List.mem_cons_self spelling is
    refine .member is noCall noIndex ?_
    rw [show (token.move place).span.start = place token.span.start from rfl,moves,scope.members_move ordered,found]
    rfl
  | @indexed room token spelling target x receiver info opening tokens args closing e next is opens walked provided
      inside found ih =>
    obtain ⟨moves,behind⟩ := List.forall_mem_cons.mp names
    have walked' := scope.members_move ordered (DottedName.ofText spelling token.span.start) target
    rw [walked,← moves spelling is] at walked'
    have provided' : scope.indexed? (some (x.move place)) = some (Expr.moveReceiver place receiver,info) := by
      rw [show some (x.move place) = (some x).map (Expr.move place) from rfl,scope.indexed_move,provided]
      rfl
    have found' := Scope.index_move ordered receiver info args token.span closing
    rw [found] at found'
    exact .indexed is opens walked' provided' (ih behind) found'
  | @called room token spelling target callee opening tokens args closing e next is opens resolved inside found ih =>
    obtain ⟨moves,behind⟩ := List.forall_mem_cons.mp names
    have resolved' := scope.callee_move ordered (DottedName.ofText spelling token.span.start) target
    rw [resolved,← moves spelling is] at resolved'
    have found' := Scope.call_move ordered callee args token.span closing
    rw [found] at found'
    exact .called is opens resolved' (ih behind) found'
  | @noArguments room opening closing close next closes =>
    have moved : (closing.move place).kind = close := closes
    exact .noArguments moved
  | someArguments inside closes ih =>
    rw [List.cons_append] at names
    obtain ⟨_,names⟩ := List.forall_mem_cons.mp names
    simp only [List.cons_append,List.map_cons,List.map_append,List.map_nil]
    exact .someArguments (ih (List.forall_mem_append.mp names).1) closes
  | last inside closes closed ih => exact .last (ih names) closes closed
  | more inside is rest insideIH restIH =>
    obtain ⟨within,names⟩ := List.forall_mem_append.mp names
    rw [List.map_append]
    exact .more (insideIH within) is (restIH (List.forall_mem_cons.mp names).2)
  | unsuffixed stops => exact .unsuffixed stops
  | suffix is named rest namedIH restIH =>
    rw [List.cons_append] at names
    obtain ⟨within,behind⟩ := List.forall_mem_append.mp (List.forall_mem_cons.mp names).2
    have name := namedIH within
    rw [← ahead_move] at name
    simp only [List.cons_append,List.map_cons,List.map_append]
    exact .suffix is name (restIH behind)
  | operand first suffixes firstIH suffixesIH =>
    obtain ⟨within,behind⟩ := List.forall_mem_append.mp names
    have front := firstIH within
    rw [← ahead_move] at front
    rw [List.map_append]
    exact .operand front (suffixesIH behind)
  | layer left chain leftIH chainIH =>
    obtain ⟨within,behind⟩ := List.forall_mem_append.mp names
    have front := leftIH within
    rw [← ahead_move] at front
    rw [List.map_append]
    exact .layer front (chainIH behind)
  | unchained stops => exact .unchained stops
  | @link room n token op tokens x y z others e next is fits right typed rest rightIH restIH =>
    rw [List.cons_append] at names
    obtain ⟨within,behind⟩ := List.forall_mem_append.mp (List.forall_mem_cons.mp names).2
    have operand := rightIH within
    rw [← ahead_move] at operand
    have typed' := bindBinary_move ordered op x y
    rw [typed] at typed'
    simp only [List.cons_append,List.map_cons,List.map_append]
    exact .link is fits operand typed' (restIH behind)

theorem Token.moves_back {d : Nat} {token : Token} (le : d ≤ token.span.start) : token.Moves (· - d) := by
  have placed : ∀ {start : Nat} (piece : List Char), d ≤ start →
      Segment.place (start - d) piece = (Segment.place start piece).move (· - d) := by
    intro start piece le
    have stop : start - d + Text.byteLength piece = start + Text.byteLength piece - d := by omega
    simp only [Segment.place,Segment.move,Span.move,stop]
  have after : ∀ {stop : Nat} (pieces : List (List Char)), d ≤ stop →
      Segment.placeAfter (stop - d) pieces = (Segment.placeAfter stop pieces).map (Segment.move (· - d)) := by
    intro stop pieces le
    induction pieces generalizing stop with
    | nil => rfl
    | cons piece pieces ih =>
      have dot : stop - d + 1 = stop + 1 - d := by omega
      rw [Segment.placeAfter,Segment.placeAfter,List.map_cons,dot,placed piece (by omega)]
      exact congrArg _ (ih (Nat.le_trans (Nat.le_succ_of_le le) (Nat.le_add_right _ _)))
  intro spelling _
  unfold DottedName.ofText DottedName.move
  dsimp only
  rw [placed _ le]
  exact congrArg _ (after _ (Nat.le_trans le (Nat.le_add_right _ _)))

namespace Expr

theorem move_back {d : Nat} (e : Expr σ) (behind : ∀ node ∈ e.nodes, d ≤ node.span.start ∧ d ≤ node.span.stop) :
    (e.move (· - d)).move (· + d) = e := by
  have span : ∀ s : Span, d ≤ s.start ∧ d ≤ s.stop → (s.move (· - d)).move (· + d) = s := by
    intro s le
    simp only [Span.move,Nat.sub_add_cancel le.1,Nat.sub_add_cancel le.2]
  have receiver : ∀ r : Receiver (Expr σ), (∀ x, r = .value x → (x.move (· - d)).move (· + d) = x) →
      moveReceiver (· + d) (moveReceiver (· - d) r) = r := by
    intro r below
    cases r with
    | context | type => rfl
    | value x => exact congrArg _ (below x rfl)
  have list : ∀ args : List (Expr σ), (∀ x ∈ args, (x.move (· - d)).move (· + d) = x) →
      moveArgs (· + d) (moveArgs (· - d) args) = args := by
    intro args below
    rw [moveArgs_eq,moveArgs_eq,List.map_map]
    exact (List.map_congr_left below).trans (List.map_id _)
  induction e using Expr.induction with
  | literal value s =>
    obtain ⟨here,_⟩ := (forall_nodes_iff _).mp behind
    simp only [move,span s here]
  | unary op operand ty s ih =>
    obtain ⟨here,below⟩ := (forall_nodes_iff _).mp behind
    simp only [move,ih (below operand List.mem_cons_self),span s here]
  | binary op left right ty s leftIH rightIH =>
    obtain ⟨here,below⟩ := (forall_nodes_iff _).mp behind
    simp only [move,leftIH (below left List.mem_cons_self),rightIH (below right (by simp [children])),span s here]
  | member r m s ih =>
    obtain ⟨here,below⟩ := (forall_nodes_iff _).mp behind
    simp only [move,receiver r fun x is => ih x is (below x (mem_target is)),span s here]
  | call r m args s ih argsIH =>
    obtain ⟨here,below⟩ := (forall_nodes_iff _).mp behind
    rw [move,move,receiver r fun x is => ih x is (below x (List.mem_append_left _ (mem_target is))),
      list args fun x present => argsIH x present (below x (List.mem_append_right _ present)),span s here]
  | index r ix args s ih argsIH =>
    obtain ⟨here,below⟩ := (forall_nodes_iff _).mp behind
    rw [move,move,receiver r fun x is => ih x is (below x (List.mem_append_left _ (mem_target is))),
      list args fun x present => argsIH x present (below x (List.mem_append_right _ present)),span s here]

end Expr

end TypedFormula
