import TypedFormula.Proofs.Rereading
import TypedFormula.Proofs.Streams

namespace TypedFormula

variable {σ : Type} {scope : Scope σ}

theorem TokenKind.eq_of_unaryOp {kind : TokenKind} {op : UnaryOp} (is : kind.unaryOp? = some op) :
    kind = op.kind := by
  cases kind <;> cases is <;> rfl

theorem Takes.group {e : Expr σ} {opening : Token} {stream behind : List Token}
    (opens : opening.kind = .leftParen) (takes : Takes scope (.primary e) (opening :: stream) behind) :
    ∃ inner closing more span, closing.kind = .rightParen ∧
      Takes scope (.layered BinaryOp.layers inner) stream (closing :: more) ∧
      Takes scope (.suffixed (inner.withSpan span) e) more behind := by
  cases takes.begins with
  | group _ closes inside suffixes => exact ⟨_,_,_,_,closes,inside,suffixes⟩
  | literal is => rw [opens] at is; cases is
  | unary is => rw [opens] at is; cases is
  | bracket is => rw [opens] at is; cases is
  | name is => rw [opens] at is; cases is

theorem Takes.name {e : Expr σ} {token : Token} {spelling : String} {stream behind : List Token}
    (is : token.kind = .name spelling) (takes : Takes scope (.primary e) (token :: stream) behind) :
    Takes scope (.named none e) (token :: stream) behind := by
  cases takes.begins with
  | name _ named => exact named
  | literal other => rw [is] at other; cases other
  | group other => rw [is] at other; cases other
  | unary other => rw [is] at other; cases other
  | bracket other => rw [is] at other; cases other

namespace Expr

-- What a reading of a tree's tokens shows: an operand `y` and suffixes that make `w` of it, of which those
-- from `stream` on are left.
structure Shown (scope : Scope σ) (e y w : Expr σ) (stream behind : List Token) : Prop where
  applies : ∀ node ∈ e.nodes, node.Applies
  apart : e.grouped = false → y.ty = e.heading.ty
  group : e.grouped = true → y.ty = w.ty
  left : ∃ x w', x.ty = e.ty ∧ w'.ty = w.ty ∧ Takes scope (.suffixed x w') stream behind

-- Every reading of the tree's tokens shows it. The suffixes may follow another tree than the operand, if
-- only its type is the same, since operators in front of the operand are read before them.
def Reveals (scope : Scope σ) (e : Expr σ) : Prop :=
  ∀ tokens after rest y y' w middle behind, tokens.map (·.kind) = e.kinds → EndsName after →
    (e.needsParens = true → after.kind ≠ .dot) → Takes scope (.primary y) (tokens ++ after :: rest) middle →
    y'.ty = y.ty → Takes scope (.suffixed y' w) middle behind → Shown scope e y w (after :: rest) behind

theorem Reveals.layered {e z : Expr σ} (reveals : Reveals scope e) {n : Nat} {tokens rest middle : List Token}
    {after : Token} (kinds : tokens.map (·.kind) = e.kinds) (ends : EndsName after) (noDot : after.kind ≠ .dot)
    (outside : ∀ op, after.kind.binaryOp? = some op → n < op.layer)
    (takes : Takes scope (.layered n z) (tokens ++ after :: rest) middle) :
    (∀ node ∈ e.nodes, node.Applies) ∧ z.ty = e.ty ∧ middle = after :: rest := by
  induction n generalizing z middle with
  | zero =>
    obtain ⟨y,between,first,suffixes⟩ := takes.operand
    have shown := reveals tokens after rest y y z between middle kinds ends (fun _ => noDot) first rfl suffixes
    obtain ⟨x,w,tyX,tyW,left⟩ := shown.left
    obtain ⟨rfl,rfl⟩ := left.suffixed_nil noDot
    exact ⟨shown.applies,tyW.symm.trans tyX,rfl⟩
  | succ n ih =>
    obtain ⟨x,between,inner,chain⟩ := takes.layer
    obtain ⟨applies,ty,rfl⟩ := ih (fun op is => Nat.lt_of_succ_lt (outside op is)) inner
    have other : ∀ op, after.kind.binaryOp? = some op → op.layer ≠ n + 1 :=
      fun op is => Nat.ne_of_gt (outside op is)
    obtain ⟨rfl,rfl⟩ := chain.chained_nil other
    exact ⟨applies,ty,rfl⟩

theorem Reveals.closed {e z : Expr σ} (reveals : Reveals scope e) {tokens rest middle : List Token} {next : Token}
    (kinds : tokens.map (·.kind) = e.kinds) (closes : next.kind = .rightParen ∨ next.kind = .rightBracket ∨
      next.kind = .comma ∨ next.kind = .ending)
    (takes : Takes scope (.layered BinaryOp.layers z) (tokens ++ next :: rest) middle) :
    (∀ node ∈ e.nodes, node.Applies) ∧ z.ty = e.ty ∧ middle = next :: rest := by
  rcases closes with is | is | is | is
  all_goals
    apply reveals.layered kinds _ _ _ takes
    · exact ⟨by rw [is]; simp,by rw [is]; simp⟩
    · rw [is]; simp
    · intro op binary
      rw [is] at binary
      cases binary

theorem reveals_literal {v : Value} {span : Span} (traceable : Traceable scope (.literal v span)) :
    Reveals scope (.literal v span) := by
  intro tokens after rest y y' w middle behind kinds ends noDot takes same suffixes
  obtain ⟨token,rfl,is⟩ := List.map_eq_singleton_iff.mp kinds
  have spellable : (TokenKind.ofValue v).Spellable := ((forall_nodes_iff _).mp traceable.legible).1
  have value : token.kind.literal? = some v.reread := by
    rw [is]
    exact TokenKind.literal_ofValue ((TokenKind.spellable_reread v).mpr spellable)
  have applies : ∀ node ∈ (Expr.literal v span : Expr σ).nodes, node.Applies :=
    (forall_nodes_iff _).mpr ⟨trivial,fun _ none => by cases none⟩
  cases takes.begins with
  | literal other isLiteral left =>
    cases value.symm.trans other
    cases isLiteral
    cases left
    exact ⟨applies,fun _ => v.reread_ty,fun group => (by cases group),y',w,same.trans v.reread_ty,rfl,suffixes⟩
  | group opens => rw [opens] at value; cases value
  | @unary op _ other =>
    rw [TokenKind.eq_of_unaryOp other] at value
    cases op <;> cases value
  | bracket other => rw [other] at value; cases value
  | name other => rw [other] at value; cases value

theorem reveals_unary {op : UnaryOp} {operand : Expr σ} {ty : Ty} {span : Span}
    (traceable : Traceable scope (.unary op operand ty span)) (below : Reveals scope operand) :
    Reveals scope (.unary op operand ty span) := by
  intro tokens after rest y y' w middle behind kinds ends noDot takes same suffixes
  obtain ⟨token,inner,rfl,is,inside⟩ := List.map_eq_cons_iff.mp kinds
  have bound : WellBound scope operand := traceable.bound.child List.mem_cons_self
  have ty : ty = operand.ty := by
    cases traceable.bound with
    | unary _ typed => exact UnaryOp.resultType_eq typed
  cases takes.begins with
  | @unary other x isOp first typed =>
    have sameOp : op.kind = other.kind := is.symm.trans (TokenKind.eq_of_unaryOp isOp)
    obtain rfl : op = other := by cases op <;> cases other <;> first | rfl | cases sameOp
    obtain ⟨result,applied,rfl⟩ := Option.map_eq_some_iff.mp typed
    cases UnaryOp.resultType_eq applied
    have shown := below inner after rest x y' w middle behind inside ends (fun _ => noDot rfl) first same suffixes
    obtain ⟨z,w',tyZ,tyW,left⟩ := shown.left
    have head : x.ty = operand.heading.ty := by
      by_cases group : operand.grouped = true
      · -- All suffixes belong to the group, so the operand is read as a whole.
        obtain ⟨rfl,_⟩ := left.suffixed_nil (noDot rfl)
        rw [heading_ty bound (whole_of_grouped group),← tyZ,tyW,← shown.group group]
      · exact shown.apart (Bool.eq_false_iff.mpr group)
    have applies : (op.resultType operand.heading.ty).isSome = true := by
      rw [← head,applied]
      rfl
    refine ⟨(forall_nodes_iff _).mpr ⟨applies,?_⟩,fun _ => head,fun group => (by cases group),z,w',
      tyZ.trans ty.symm,tyW,left⟩
    intro child isChild
    cases List.mem_singleton.mp isChild
    exact shown.applies
  | literal other => rw [is] at other; cases op <;> cases other
  | group other => rw [is] at other; cases op <;> cases other
  | bracket other => rw [is] at other; cases op <;> cases other
  | name other => rw [is] at other; cases op <;> cases other

-- Between parentheses both operands are read in the layer of the operator, and nothing more in the looser ones.
theorem binary_shown {op : BinaryOp} {left right z : Expr σ} {ty : Ty} {span : Span}
    (bound : WellBound scope (.binary op left right ty span)) (first : Reveals scope left) (second : Reveals scope right)
    {before others rest stop : List Token} {token closing : Token} (isLeft : before.map (·.kind) = left.kinds)
    (is : token.kind = op.kind) (isRight : others.map (·.kind) = right.kinds) (closes : closing.kind = .rightParen)
    {n : Nat} (le : op.layer ≤ n)
    (takes : Takes scope (.layered n z) (before ++ token :: (others ++ closing :: rest)) stop) :
    ((∀ node ∈ left.nodes, node.Applies) ∧ ∀ node ∈ right.nodes, node.Applies) ∧ z.ty = ty ∧ stop = closing :: rest := by
  have isOp : token.kind.binaryOp? = some op := by rw [is]; exact op.binaryOp_kind
  have noOp : ∀ other n, closing.kind.binaryOp? = some other → n < other.layer := by
    intro other n is
    rw [closes] at is
    cases is
  induction n, le using Nat.le_induction generalizing z stop with
  | base =>
    obtain ⟨n,layer⟩ := Nat.exists_eq_add_one_of_ne_zero (Nat.ne_zero_of_lt (layer_fits op).1)
    rw [layer] at takes
    obtain ⟨x,stop',front,chain⟩ := takes.layer
    obtain ⟨endsOp,noDotOp⟩ := endsName_of_binaryOp is
    obtain ⟨appliesLeft,tyLeft,rfl⟩ := first.layered isLeft endsOp noDotOp (by
      intro other isOther
      cases isOp.symm.trans isOther
      omega) front
    obtain ⟨x',z',stop',back,typed,chain⟩ := chain.chained_link isOp layer
    obtain ⟨appliesRight,tyRight,rfl⟩ := second.layered isRight ⟨by rw [closes]; decide,by rw [closes]; decide⟩
      (by rw [closes]; decide) (fun other => noOp other n) back
    obtain ⟨rfl,rfl⟩ := chain.chained_nil fun other isOther => Nat.ne_of_gt (noOp other _ isOther)
    refine ⟨⟨appliesLeft,appliesRight⟩,?_,rfl⟩
    obtain ⟨result,applied,rfl⟩ := Option.map_eq_some_iff.mp typed
    rw [tyLeft,tyRight] at applied
    cases bound with
    | binary _ _ typed => exact Option.some.inj (applied.symm.trans typed)
  | succ n _ ih =>
    obtain ⟨x,stop',front,chain⟩ := takes.layer
    obtain ⟨applies,tyX,rfl⟩ := ih front
    obtain ⟨rfl,rfl⟩ := chain.chained_nil fun other isOther => Nat.ne_of_gt (noOp other _ isOther)
    exact ⟨applies,tyX,rfl⟩

theorem reveals_binary {op : BinaryOp} {left right : Expr σ} {ty : Ty} {span : Span}
    (traceable : Traceable scope (.binary op left right ty span)) (first : Reveals scope left)
    (second : Reveals scope right) : Reveals scope (.binary op left right ty span) := by
  intro tokens after rest y y' w middle behind kinds ends noDot takes same suffixes
  obtain ⟨opening,inner,rfl,opens,kinds⟩ := List.map_eq_cons_iff.mp kinds
  obtain ⟨before,following,rfl,isLeft,kinds⟩ := List.map_eq_append_iff.mp kinds
  obtain ⟨token,following,rfl,is,kinds⟩ := List.map_eq_cons_iff.mp kinds
  obtain ⟨others,last,rfl,isRight,kinds⟩ := List.map_eq_append_iff.mp kinds
  obtain ⟨closing,rfl,closes⟩ := List.map_eq_singleton_iff.mp kinds
  have stream : opening :: (before ++ token :: (others ++ [closing])) ++ after :: rest =
      opening :: (before ++ token :: (others ++ closing :: after :: rest)) := by simp
  rw [stream] at takes
  obtain ⟨x,closing',more,span,_,layered,own⟩ := takes.group opens
  obtain ⟨⟨appliesLeft,appliesRight⟩,tyX,split⟩ :=
    binary_shown traceable.bound first second isLeft is isRight closes (layer_fits op).2 layered
  obtain ⟨_,rfl⟩ := List.cons.inj split
  obtain ⟨rfl,rfl⟩ := own.suffixed_done suffixes
  refine ⟨(forall_nodes_iff _).mpr ⟨trivial,?_⟩,fun apart => (by cases apart),fun _ => same.symm,_,y,?_,same.symm,own⟩
  · exact List.forall_mem_cons.mpr ⟨appliesLeft,List.forall_mem_singleton.mpr appliesRight⟩
  · rw [ty_withSpan]
    exact tyX

theorem separated_shown {args es : List (Expr σ)} {tokens rest behind : List Token} {closing : Token}
    {close : TokenKind} (each : ∀ arg ∈ args, Reveals scope arg) (filled : args ≠ [])
    (closer : close = .rightParen ∨ close = .rightBracket) (is : closing.kind = close)
    (kinds : tokens.map (·.kind) = argKinds args)
    (takes : Takes scope (.separated close es) (tokens ++ closing :: rest) behind) :
    (∀ arg ∈ args, ∀ node ∈ arg.nodes, node.Applies) ∧ es.map Expr.ty = args.map Expr.ty ∧
      behind = closing :: rest := by
  -- What closes arguments is no comma, so the token behind an argument tells whether another one comes.
  have noComma : close ≠ .comma := by
    rcases closer with rfl | rfl <;> decide
  induction args generalizing es tokens with
  | nil => exact absurd rfl filled
  | cons arg args ih =>
    have first := each arg List.mem_cons_self
    obtain ⟨e,others,token,middle,rfl,inside,goes⟩ := takes.separated
    cases args with
    | nil =>
      have ends : closing.kind = .rightParen ∨ closing.kind = .rightBracket ∨ closing.kind = .comma ∨
          closing.kind = .ending := by
        rw [is]
        rcases closer with closer | closer <;> simp [closer]
      obtain ⟨applies,ty,split⟩ := first.closed kinds ends inside
      obtain ⟨rfl,rfl⟩ := List.cons.inj split
      rcases goes with ⟨_,_,rfl,rfl⟩ | ⟨isComma,_⟩
      · refine ⟨?_,by rw [List.map_cons,ty]; rfl,rfl⟩
        intro arg' present
        cases List.mem_singleton.mp present
        exact applies
      · exact absurd (is.symm.trans isComma) noComma
    | cons next args =>
      rw [argKinds] at kinds
      · obtain ⟨before,following,rfl,isFirst,kinds⟩ := List.map_eq_append_iff.mp kinds
        obtain ⟨comma,after,rfl,isComma,isOthers⟩ := List.map_eq_cons_iff.mp kinds
        rw [List.append_assoc,List.cons_append] at inside
        obtain ⟨applies,ty,split⟩ := first.closed isFirst (.inr (.inr (.inl isComma))) inside
        obtain ⟨rfl,rfl⟩ := List.cons.inj split
        rcases goes with ⟨closes,_⟩ | ⟨_,more⟩
        · exact absurd (closes.symm.trans isComma) noComma
        · obtain ⟨appliesAll,types,same⟩ := ih (fun arg' present => each arg' (List.mem_cons_of_mem _ present))
            (List.cons_ne_nil _ _) isOthers more
          refine ⟨?_,by rw [List.map_cons,ty,types]; rfl,same⟩
          intro arg' present
          rcases List.mem_cons.mp present with rfl | later
          · exact applies
          · exact appliesAll arg' later
      · exact List.cons_ne_nil _ _

theorem argKinds_start {args : List (Expr σ)} (filled : args ≠ []) : Starts (argKinds args) := by
  cases args with
  | nil => exact absurd rfl filled
  | cons arg args =>
    cases args with
    | nil => exact arg.kinds_start
    | cons next args =>
      rw [argKinds]
      · exact arg.kinds_start.append _
      · exact List.cons_ne_nil _ _

theorem arguments_shown {args es : List (Expr σ)} {inner rest behind : List Token} {opening closing : Token}
    {span : Span} {close : TokenKind} (each : ∀ arg ∈ args, Reveals scope arg)
    (closer : close = .rightParen ∨ close = .rightBracket) (is : closing.kind = close)
    (kinds : inner.map (·.kind) = argKinds args)
    (takes : Takes scope (.arguments close es span) (opening :: (inner ++ closing :: rest)) behind) :
    (∀ arg ∈ args, ∀ node ∈ arg.nodes, node.Applies) ∧ es.map Expr.ty = args.map Expr.ty ∧ behind = rest := by
  have noOperand : close.startsOperand = false := by
    rcases closer with rfl | rfl <;> rfl
  by_cases empty : args = []
  · subst empty
    cases List.map_eq_nil_iff.mp kinds
    rcases takes.arguments with ⟨rfl,_,split,_⟩ | ⟨_,_,_,tokens,_,_,split,_,reads⟩
    · exact ⟨fun _ none => (by cases none),rfl,(List.cons.inj split).2.symm⟩
    · obtain ⟨first,others,rfl,starts⟩ := reads.starts rfl
      obtain ⟨rfl,_⟩ := List.cons.inj split
      change closing.kind.startsOperand = true at starts
      rw [is,noOperand] at starts
      cases starts
  · rcases takes.arguments with ⟨_,token,split,closes⟩ | ⟨token,_,inside⟩
    · obtain ⟨kind,others,head,starts⟩ := argKinds_start empty
      rw [head] at kinds
      obtain ⟨first,inner,rfl,rfl,_⟩ := List.map_eq_cons_iff.mp kinds
      obtain ⟨rfl,_⟩ := List.cons.inj split
      have spellable : first.kind.Spellable := by
        rw [closes]
        rcases closer with rfl | rfl <;> exact trivial
      rw [closes] at starts
      cases noOperand.symm.trans (starts (closes ▸ spellable))
    · obtain ⟨applies,types,split⟩ := separated_shown each empty closer is kinds inside
      exact ⟨applies,types,(List.cons.inj split).2⟩

def passed : Expr σ → List (Expr σ)
  | .call _ _ args _ => args
  | .index _ _ args _ => args
  | _ => []

theorem children_of_access {e : Expr σ} {receiver : Receiver (Expr σ)} (follows : e.receiver? = some receiver) :
    e.children = receiver.target?.toList ++ e.passed := by
  cases e with
  | literal | unary | binary => cases follows
  | member => cases follows; exact (List.append_nil _).symm
  | call | index => cases follows; rfl

-- What every reading of an access's name and arguments shows, on any tree of the type that the name
-- goes on from.
def Tells (scope : Scope σ) (e : Expr σ) (receiver : Receiver (Expr σ)) (names : List Token) : Prop :=
  ∀ target z after rest middle, Stands receiver.anchor target target → EndsName after →
    Takes scope (.named target z) (names ++ after :: rest) middle →
    (∀ arg ∈ e.passed, ∀ node ∈ arg.nodes, node.Applies) ∧ z.ty = e.ty ∧ middle = after :: rest

theorem tells_member {receiver : Receiver (Expr σ)} {m : Member σ} {span : Span} {token : Token}
    (traceable : Traceable scope (.member receiver m span))
    (is : token.kind = .name (dotted (receiver.names ++ [m.name]))) :
    Tells scope (.member receiver m span) receiver [token] := by
  intro target z after rest middle stands ends takes
  cases takes.continues with
  | member isName _ _ found all =>
    cases is.symm.trans isName
    obtain ⟨x,again,alike⟩ := member_reread traceable stands token.span.start
    cases found.symm.trans again
    exact ⟨fun _ none => (by cases none),(alike.ty fun _ _ same => by rw [same]).symm,all.symm⟩
  | indexed _ starts opens =>
    obtain ⟨rfl,_⟩ := List.cons.inj starts
    exact absurd opens ends.noIndex
  | called _ starts opens =>
    obtain ⟨rfl,_⟩ := List.cons.inj starts
    exact absurd opens ends.noCall

theorem tells_call {receiver : Receiver (Expr σ)} {m : Method σ} {args : List (Expr σ)} {span : Span}
    {inner : List Token} {token opening closing : Token} (traceable : Traceable scope (.call receiver m args span))
    (each : ∀ arg ∈ args, Reveals scope arg) (is : token.kind = .name (dotted (receiver.names ++ [m.name])))
    (opens : opening.kind = .leftParen) (kinds : inner.map (·.kind) = argKinds args)
    (closes : closing.kind = .rightParen) :
    Tells scope (.call receiver m args span) receiver (token :: opening :: (inner ++ [closing])) := by
  intro target z after rest middle stands _ takes
  have stream : token :: opening :: (inner ++ [closing]) ++ after :: rest =
      token :: opening :: (inner ++ closing :: after :: rest) := by simp
  rw [stream] at takes
  cases takes.continues with
  | member _ noCall _ _ all left =>
    obtain ⟨rfl,_⟩ := List.cons.inj (all.trans left)
    exact absurd opens noCall
  | indexed _ starts other =>
    obtain ⟨rfl,_⟩ := List.cons.inj starts
    cases opens.symm.trans other
  | called isName _ _ resolved inside found =>
    cases is.symm.trans isName
    obtain ⟨applies,types,left⟩ := arguments_shown each (.inl rfl) closes kinds inside
    obtain ⟨other,info,segment,again,name,like,overload⟩ := callee_reread traceable stands token.span.start
    cases resolved.symm.trans again
    rw [call_again (isStatic_upon like) name overload types] at found
    cases found
    exact ⟨applies,rfl,left⟩

theorem tells_index {x : Expr σ} {ix : Indexer σ} {args : List (Expr σ)} {span : Span} {inner : List Token}
    {token opening closing : Token} (traceable : Traceable scope (.index (.value x) ix args span))
    (named : x.path ≠ []) (each : ∀ arg ∈ args, Reveals scope arg) (is : token.kind = .name (dotted x.path))
    (opens : opening.kind = .leftBracket) (kinds : inner.map (·.kind) = argKinds args)
    (closes : closing.kind = .rightBracket) :
    Tells scope (.index (.value x) ix args span) (.value x) (token :: opening :: (inner ++ [closing])) := by
  intro target z after rest middle stands _ takes
  have stream : token :: opening :: (inner ++ [closing]) ++ after :: rest =
      token :: opening :: (inner ++ closing :: after :: rest) := by simp
  rw [stream] at takes
  cases takes.continues with
  | member _ _ noIndex _ all left =>
    obtain ⟨rfl,_⟩ := List.cons.inj (all.trans left)
    exact absurd opens noIndex
  | called _ starts other =>
    obtain ⟨rfl,_⟩ := List.cons.inj starts
    cases opens.symm.trans other
  | indexed isName _ _ walked provided inside found =>
    cases is.symm.trans isName
    obtain ⟨applies,types,left⟩ := arguments_shown each (.inr rfl) closes kinds inside
    obtain ⟨y,again,like⟩ := members_reread (traceable.child (mem_children_of_receiver rfl)) named stands
      token.span.start
    cases walked.symm.trans again
    cases traceable.bound with
    | index _ _ _ registered overload =>
      rw [indexed_again stands like registered] at provided
      cases provided
      rw [index_again overload types] at found
      cases found
      exact ⟨applies,rfl,left⟩

-- The members of a run add no operators.
theorem applies_receiver {receiver : Receiver (Expr σ)}
    (bases : ∀ base, receiver.anchor = some base → ∀ node ∈ base.nodes, node.Applies) :
    ∀ child ∈ receiver.target?.toList, ∀ node ∈ child.nodes, node.Applies := by
  cases receiver with
  | context | type => exact fun _ none => (by cases none)
  | value target =>
    intro child isTarget
    cases List.mem_singleton.mp isTarget
    induction target using Expr.induction with
    | literal | unary | binary | call | index => exact bases _ rfl
    | member receiver m span below =>
      refine (forall_nodes_iff _).mpr ⟨trivial,?_⟩
      cases receiver with
      | context | type => exact fun _ none => (by cases none)
      | value x =>
        intro child isTarget
        cases List.mem_singleton.mp isTarget
        exact below x rfl bases List.mem_cons_self

theorem applies_access {e : Expr σ} {receiver : Receiver (Expr σ)} (follows : e.receiver? = some receiver)
    (bases : ∀ base, receiver.anchor = some base → ∀ node ∈ base.nodes, node.Applies)
    (arguments : ∀ arg ∈ e.passed, ∀ node ∈ arg.nodes, node.Applies) : ∀ node ∈ e.nodes, node.Applies := by
  rw [forall_nodes_iff,children_of_access follows]
  refine ⟨?_,?_⟩
  · cases e with
    | literal | unary | binary => cases follows
    | member | call | index => trivial
  · intro child isChild
    rcases List.mem_append.mp isChild with inReceiver | inArgs
    · exact applies_receiver bases child inReceiver
    · exact arguments child inArgs

theorem reveals_rooted {e : Expr σ} {receiver : Receiver (Expr σ)} {after : Token} {names rest middle behind : List Token}
    {y y' w : Expr σ} (follows : e.receiver? = some receiver) (bound : WellBound scope e)
    (rooted : receiver.anchor = none) (tells : Tells scope e receiver names)
    (starts : ∃ token others spelling, names = token :: others ∧ token.kind = .name spelling)
    (ends : EndsName after) (takes : Takes scope (.primary y) (names ++ after :: rest) middle)
    (same : y'.ty = y.ty) (suffixes : Takes scope (.suffixed y' w) middle behind) :
    Shown scope e y w (after :: rest) behind := by
  obtain ⟨token,others,spelling,rfl,is⟩ := starts
  have stands : Stands receiver.anchor none none := by
    rw [rooted]
    exact .rooted
  obtain ⟨arguments,ty,rfl⟩ := tells none y after rest middle stands ends (takes.name is)
  have single : e.whole = true := by
    have joined : receiver.joined = true := by
      rw [Receiver.joined,rooted]
      exact Bool.or_true _
    cases e with
    | literal | unary | binary => cases follows
    | member | call | index => cases follows; exact joined
  have applies := applies_access follows (fun base starts => by rw [rooted] at starts; cases starts) arguments
  refine ⟨applies,?_,?_,y',w,same.trans ty,rfl,suffixes⟩
  · intro _
    rw [heading_ty bound single,ty]
  · intro group
    rw [grouped_of_receiver follows,grouped_of_rooted rooted] at group
    cases group

theorem reveals_parens {e base : Expr σ} {receiver : Receiver (Expr σ)} {opening closing dot after : Token}
    {inside names rest middle behind : List Token} {y y' w : Expr σ} (follows : e.receiver? = some receiver)
    (starts : receiver.anchor = some base) (parens : base.needsParens = true) (reveals : Reveals scope base)
    (isInside : inside.map (·.kind) = base.kinds) (tells : Tells scope e receiver names)
    (opens : opening.kind = .leftParen) (closes : closing.kind = .rightParen) (isDot : dot.kind = .dot)
    (ends : EndsName after)
    (takes : Takes scope (.primary y) (opening :: (inside ++ closing :: dot :: (names ++ after :: rest))) middle)
    (same : y'.ty = y.ty) (suffixes : Takes scope (.suffixed y' w) middle behind) :
    Shown scope e y w (after :: rest) behind := by
  obtain ⟨inner,_,_,span,_,layered,own⟩ := takes.group opens
  obtain ⟨applies,ty,split⟩ := reveals.closed isInside (.inl closes) layered
  obtain ⟨rfl,rfl⟩ := List.cons.inj split
  obtain ⟨z,between,named,others⟩ := own.suffixed_dot isDot
  have stands : Stands receiver.anchor (some (inner.withSpan span)) (some (inner.withSpan span)) := by
    rw [starts]
    exact .anchored ((ty_withSpan inner span).trans ty) (.refl (fun _ => rfl) _)
  obtain ⟨arguments,tyZ,rfl⟩ := tells _ z after rest between stands ends named
  obtain ⟨rfl,rfl⟩ := others.suffixed_done suffixes
  have group : e.grouped = true := by
    rw [grouped_of_receiver follows,grouped_of_base starts,parens,Bool.true_or]
  refine ⟨applies_access follows ?_ arguments,?_,fun _ => same.symm,z,y,tyZ,same.symm,others⟩
  · intro other found
    cases starts.symm.trans found
    exact applies
  · intro apart
    cases group.symm.trans apart

theorem reveals_dot {e base : Expr σ} {receiver : Receiver (Expr σ)} {dot after : Token}
    {inside names rest middle behind : List Token} {y y' w : Expr σ} (follows : e.receiver? = some receiver)
    (starts : receiver.anchor = some base) (noParens : base.needsParens = false) (reveals : Reveals scope base)
    (isInside : inside.map (·.kind) = base.kinds) (tells : Tells scope e receiver names)
    (isDot : dot.kind = .dot) (ends : EndsName after)
    (takes : Takes scope (.primary y) (inside ++ dot :: (names ++ after :: rest)) middle)
    (same : y'.ty = y.ty) (suffixes : Takes scope (.suffixed y' w) middle behind) :
    Shown scope e y w (after :: rest) behind := by
  have shown := reveals inside dot (names ++ after :: rest) y y' w middle behind isInside (endsName_dot isDot)
    (fun needs => by rw [noParens] at needs; cases needs) takes same suffixes
  obtain ⟨x,w',ty,tyW,left⟩ := shown.left
  obtain ⟨z,between,named,others⟩ := left.suffixed_dot isDot
  have stands : Stands receiver.anchor (some x) (some x) := by
    rw [starts]
    exact .anchored ty (.refl (fun _ => rfl) _)
  obtain ⟨arguments,tyZ,rfl⟩ := tells _ z after rest between stands ends named
  have group : e.grouped = base.grouped := by
    rw [grouped_of_receiver follows,grouped_of_base starts,noParens,Bool.false_or]
  refine ⟨applies_access follows ?_ arguments,?_,fun grouped => shown.group (group ▸ grouped),z,w',tyZ,tyW,others⟩
  · intro other found
    cases starts.symm.trans found
    exact shown.applies
  · intro apart
    have single : receiver.joined = false := by
      rw [Receiver.joined,← grouped_of_receiver follows,apart,starts]
      rfl
    rw [heading_apart follows starts single]
    exact shown.apart (group ▸ apart)

theorem reveals_access {e : Expr σ} {receiver : Receiver (Expr σ)} {lead names rest middle behind : List Token}
    {after : Token} {y y' w : Expr σ} (follows : e.receiver? = some receiver) (bound : WellBound scope e)
    (bases : ∀ base, receiver.anchor = some base → Reveals scope base)
    (isLead : lead.map (·.kind) = leadKinds receiver) (tells : Tells scope e receiver names)
    (begins : ∃ token others spelling, names = token :: others ∧ token.kind = .name spelling)
    (ends : EndsName after) (takes : Takes scope (.primary y) (lead ++ names ++ after :: rest) middle)
    (same : y'.ty = y.ty) (suffixes : Takes scope (.suffixed y' w) middle behind) :
    Shown scope e y w (after :: rest) behind := by
  cases starts : receiver.anchor with
  | none =>
    rw [leadKinds_of_anchor starts] at isLead
    cases List.map_eq_nil_iff.mp isLead
    exact reveals_rooted follows bound starts tells begins ends takes same suffixes
  | some base =>
    rw [leadKinds_of_base starts,pointAt] at isLead
    by_cases parens : base.needsParens = true
    · rw [if_pos parens] at isLead
      obtain ⟨opening,inner,rfl,opens,isLead⟩ := List.map_eq_cons_iff.mp isLead
      obtain ⟨inside,last,rfl,isInside,isLead⟩ := List.map_eq_append_iff.mp isLead
      obtain ⟨closing,last,rfl,closes,isLead⟩ := List.map_eq_cons_iff.mp isLead
      obtain ⟨dot,nothing,rfl,isDot,isLead⟩ := List.map_eq_cons_iff.mp isLead
      cases List.map_eq_nil_iff.mp isLead
      have stream : opening :: (inside ++ [closing,dot]) ++ names ++ after :: rest =
          opening :: (inside ++ closing :: dot :: (names ++ after :: rest)) := by simp
      rw [stream] at takes
      exact reveals_parens follows starts parens (bases base starts) isInside tells opens closes isDot ends takes
        same suffixes
    · rw [if_neg parens] at isLead
      obtain ⟨inside,last,rfl,isInside,isLead⟩ := List.map_eq_append_iff.mp isLead
      obtain ⟨dot,nothing,rfl,isDot,isLead⟩ := List.map_eq_cons_iff.mp isLead
      cases List.map_eq_nil_iff.mp isLead
      have stream : inside ++ [dot] ++ names ++ after :: rest =
          inside ++ dot :: (names ++ after :: rest) := by simp
      rw [stream] at takes
      exact reveals_dot follows starts (Bool.eq_false_iff.mpr parens) (bases base starts) isInside tells isDot ends
        takes same suffixes

theorem reveals_member {receiver : Receiver (Expr σ)} {m : Member σ} {span : Span}
    (traceable : Traceable scope (.member receiver m span))
    (bases : ∀ base, receiver.anchor = some base → Reveals scope base) :
    Reveals scope (.member receiver m span) := by
  intro tokens after rest y y' w middle behind kinds ends _ takes same suffixes
  obtain ⟨before,last,rfl,isLead,kinds⟩ := List.map_eq_append_iff.mp kinds
  obtain ⟨token,rfl,is⟩ := List.map_eq_singleton_iff.mp kinds
  exact reveals_access rfl traceable.bound bases isLead (tells_member traceable is) ⟨_,_,_,rfl,is⟩ ends takes same
    suffixes

theorem reveals_call {receiver : Receiver (Expr σ)} {m : Method σ} {args : List (Expr σ)} {span : Span}
    (traceable : Traceable scope (.call receiver m args span))
    (bases : ∀ base, receiver.anchor = some base → Reveals scope base)
    (each : ∀ arg ∈ args, Reveals scope arg) : Reveals scope (.call receiver m args span) := by
  intro tokens after rest y y' w middle behind kinds ends _ takes same suffixes
  obtain ⟨before,following,rfl,isLead,kinds⟩ := List.map_eq_append_iff.mp kinds
  obtain ⟨token,following,rfl,is,kinds⟩ := List.map_eq_cons_iff.mp kinds
  obtain ⟨opening,following,rfl,opens,kinds⟩ := List.map_eq_cons_iff.mp kinds
  obtain ⟨inner,last,rfl,isArgs,kinds⟩ := List.map_eq_append_iff.mp kinds
  obtain ⟨closing,rfl,closes⟩ := List.map_eq_singleton_iff.mp kinds
  exact reveals_access rfl traceable.bound bases isLead (tells_call traceable each is opens isArgs closes)
    ⟨_,_,_,rfl,is⟩ ends takes same suffixes

theorem reveals_bracket {ix : Indexer σ} {args : List (Expr σ)} {span : Span} {inner rest middle behind : List Token}
    {opening closing after : Token} {y y' w : Expr σ} (traceable : Traceable scope (.index .context ix args span))
    (each : ∀ arg ∈ args, Reveals scope arg) (opens : opening.kind = .leftBracket)
    (isArgs : inner.map (·.kind) = argKinds args) (closes : closing.kind = .rightBracket)
    (takes : Takes scope (.primary y) (opening :: (inner ++ closing :: after :: rest)) middle)
    (same : y'.ty = y.ty) (suffixes : Takes scope (.suffixed y' w) middle behind) :
    Shown scope (.index .context ix args span) y w (after :: rest) behind := by
  cases takes.begins with
  | bracket _ provided inside found =>
    obtain ⟨arguments,types,rfl⟩ := arguments_shown each (.inr rfl) closes isArgs inside
    cases traceable.bound with
    | @index _ _ _ _ info _ _ _ registered overload =>
      have indexed : scope.indexed? none = some (.context,info) := by
        rw [Scope.indexed?,registered]
        rfl
      cases provided.symm.trans indexed
      rw [index_again overload types] at found
      cases found
      have follows : (Expr.index .context ix args span).receiver? = some .context := rfl
      have applies := applies_access follows (fun _ starts => by cases starts) arguments
      exact ⟨applies,fun _ => rfl,fun group => (by cases group),y',w,same,rfl,suffixes⟩
  | literal is => rw [opens] at is; cases is
  | group is => rw [opens] at is; cases is
  | unary is => rw [opens] at is; cases is
  | name is => rw [opens] at is; cases is

theorem reveals_index {receiver : Receiver (Expr σ)} {ix : Indexer σ} {args : List (Expr σ)} {span : Span}
    (traceable : Traceable scope (.index receiver ix args span))
    (bases : ∀ base, receiver.anchor = some base → Reveals scope base)
    (each : ∀ arg ∈ args, Reveals scope arg) : Reveals scope (.index receiver ix args span) := by
  intro tokens after rest y y' w middle behind kinds ends _ takes same suffixes
  obtain ⟨before,following,rfl,isTarget,kinds⟩ := List.map_eq_append_iff.mp kinds
  obtain ⟨opening,following,rfl,opens,kinds⟩ := List.map_eq_cons_iff.mp kinds
  obtain ⟨inner,last,rfl,isArgs,kinds⟩ := List.map_eq_append_iff.mp kinds
  obtain ⟨closing,rfl,closes⟩ := List.map_eq_singleton_iff.mp kinds
  cases receiver with
  | type =>
    cases traceable.bound with
    | index _ _ dynamic => cases dynamic
  | context =>
    cases List.map_eq_nil_iff.mp isTarget
    have stream : [] ++ opening :: (inner ++ [closing]) ++ after :: rest =
        opening :: (inner ++ closing :: after :: rest) := by simp
    rw [stream] at takes
    exact reveals_bracket traceable each opens isArgs closes takes same suffixes
  | value x =>
    have named : x.path ≠ [] := ((forall_nodes_iff _).mp traceable.legible).1 x rfl
    rw [targetKinds,kinds_of_path named] at isTarget
    obtain ⟨front,last,rfl,isLead,kinds⟩ := List.map_eq_append_iff.mp isTarget
    obtain ⟨token,rfl,is⟩ := List.map_eq_singleton_iff.mp kinds
    rw [List.append_assoc front] at takes
    exact reveals_access rfl traceable.bound bases isLead (tells_index traceable named each is opens isArgs closes)
      ⟨_,_,_,rfl,is⟩ ends takes same suffixes

theorem reveals (e : Expr σ) (traceable : Traceable scope e) : Reveals scope e := by
  induction e using anchor_induction with
  | literal v span => exact reveals_literal traceable
  | unary op operand ty span below =>
    exact reveals_unary traceable (below (traceable.child (by simp [children])))
  | binary op left right ty span first second =>
    exact reveals_binary traceable (first (traceable.child (by simp [children])))
      (second (traceable.child (by simp [children])))
  | member receiver m span lead =>
    exact reveals_member traceable fun base starts =>
      lead base starts (base_induction Traceable.child traceable rfl starts)
  | call receiver m args span lead each =>
    exact reveals_call traceable
      (fun base starts => lead base starts (base_induction Traceable.child traceable rfl starts))
      fun arg present => each arg present (traceable.child (by simp [children,present]))
  | index receiver ix args span lead each =>
    exact reveals_index traceable
      (fun base starts => lead base starts (base_induction Traceable.child traceable rfl starts))
      fun arg present => each arg present (traceable.child (by simp [children,present]))

end Expr
end TypedFormula
