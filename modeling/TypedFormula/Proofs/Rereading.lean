import TypedFormula.Proofs.RereadTrees

namespace TypedFormula

variable {σ : Type}

namespace Expr

-- What a tree has to be for its names to be found again: it comes from binding, its names can be told from
-- others, and no type is in their way.
structure Traceable (scope : Scope σ) (e : Expr σ) : Prop where
  bound : WellBound scope e
  legible : ∀ node ∈ e.nodes, node.Legible scope
  clear : ∀ node ∈ e.nodes, node.NamesClear scope

-- What lets its tokens be read again: its unary operators take what they are printed in front of.
structure Repeatable (scope : Scope σ) (e : Expr σ) : Prop extends Traceable scope e where
  applies : ∀ node ∈ e.nodes, node.Applies

variable {scope : Scope σ}

theorem Traceable.child {e child : Expr σ} (traceable : Traceable scope e) (isChild : child ∈ e.children) :
    Traceable scope child where
  bound := traceable.bound.child isChild
  legible := ((forall_nodes_iff e).mp traceable.legible).2 child isChild
  clear := ((forall_nodes_iff e).mp traceable.clear).2 child isChild

theorem Repeatable.child {e child : Expr σ} (repeatable : Repeatable scope e) (isChild : child ∈ e.children) :
    Repeatable scope child :=
  ⟨repeatable.toTraceable.child isChild,((forall_nodes_iff e).mp repeatable.applies).2 child isChild⟩

theorem mem_children_of_receiver {e target : Expr σ} (follows : e.receiver? = some (.value target)) :
    target ∈ e.children := by
  cases e with
  | literal | unary | binary => cases follows
  | member | call | index => cases follows; simp [children,Receiver.target?]

theorem base_induction {p : Expr σ → Prop} (child : ∀ {e child : Expr σ}, p e → child ∈ e.children → p child)
    {e base : Expr σ} {receiver : Receiver (Expr σ)} (whole : p e) (follows : e.receiver? = some receiver)
    (starts : receiver.anchor = some base) : p base := by
  cases receiver with
  | context | type => cases starts
  | value target =>
    apply run_induction (p := fun x => p x → p base) starts
    · exact id
    · intro x m span below member
      exact below (child member (mem_children_of_receiver rfl))
    · exact child whole (mem_children_of_receiver follows)

-- Behind a token of this kind no name goes on.
structure EndsName (next : Token) : Prop where
  noCall : next.kind ≠ .leftParen
  noIndex : next.kind ≠ .leftBracket

-- What is read from the tokens of a tree, in front of any suffixes.
inductive Rereads (scope : Scope σ) (room : Nat) (e : Expr σ) : List Token → Prop where
  | group {tokens : List Token} {e' : Expr σ} (grouped : e.grouped = true) (alike : Alike Eq e.reread e')
      (leads : ∀ others next w, EndsName (ahead others next) → Reads scope room (.suffixed e' w) others next →
        Reads scope room (.primary w) (tokens ++ others) next) : Rereads scope room e tokens
  | heading {front back : List Token} {head first : Expr σ} (apart : e.grouped = false)
      (ty : head.ty = e.heading.ty) (alike : Alike Eq head first)
      (reads : ∀ others next, EndsName (ahead others next) →
        (e.needsParens = true → (ahead others next).kind ≠ .dot) →
        Reads scope room (.primary first) front (ahead (back ++ others) next))
      (follows : ∀ ops y, Alike Eq (under ops head) y → ∃ e', Alike Eq (rereadUnder ops e) e' ∧
        ∀ wider, room ≤ wider → ∀ others next w, EndsName (ahead others next) →
          Reads scope wider (.suffixed e' w) others next →
          Reads scope wider (.suffixed y w) (back ++ others) next) : Rereads scope room e (front ++ back)

def Returns (scope : Scope σ) (e : Expr σ) : Prop :=
  ∀ room tokens, e.height ≤ room → tokens.map (·.kind) = e.kinds → Rereads scope room e tokens

-- A looser layer reads the same in front of what is no operator of its own or a tighter one.
theorem layered_looser {room n m : Nat} {e : Expr σ} {tokens : List Token} {next : Token} (le : n ≤ m)
    (outside : ∀ op, next.kind.binaryOp? = some op → m < op.layer)
    (reads : Reads scope room (.layered n e) tokens next) : Reads scope room (.layered m e) tokens next := by
  induction m, le using Nat.le_induction with
  | base => exact reads
  | succ m _ ih =>
    have inner := ih fun op is => Nat.lt_of_succ_lt (outside op is)
    rw [← List.append_nil tokens]
    refine .layer inner (.unchained ?_)
    intro op is same
    have outer := outside op is
    omega

theorem Rereads.layered {room : Nat} {e : Expr σ} {tokens : List Token} (rereads : Rereads scope room e tokens) :
    ∃ e', Alike Eq e.reread e' ∧ ∀ n next, EndsName next → next.kind ≠ .dot →
      (∀ op, next.kind.binaryOp? = some op → n < op.layer) → Reads scope room (.layered n e') tokens next := by
  cases rereads with
  | @group tokens e' _ alike leads =>
    refine ⟨e',alike,?_⟩
    intro n next ends noDot outside
    have primary := leads [] next e' ends (.unsuffixed noDot)
    have reads := Reads.operand primary (.unsuffixed noDot)
    rw [List.append_nil,List.append_nil] at reads
    exact layered_looser (Nat.zero_le n) outside reads
  | @heading front back head first _ _ alike reads follows =>
    obtain ⟨e',like,suffixes⟩ := follows [] first alike
    refine ⟨e',like,?_⟩
    intro n next ends noDot outside
    have primary := reads [] next ends fun _ => noDot
    have behind := suffixes room (Nat.le_refl _) [] next e' ends (.unsuffixed noDot)
    rw [List.append_nil] at primary behind
    exact layered_looser (Nat.zero_le n) outside (.operand primary behind)

theorem Rereads.closed {room : Nat} {e : Expr σ} {tokens : List Token} (rereads : Rereads scope room e tokens) :
    ∃ e', Alike Eq e.reread e' ∧ ∀ next, next.kind = .rightParen ∨ next.kind = .rightBracket ∨
      next.kind = .comma ∨ next.kind = .ending → Reads scope room (.layered BinaryOp.layers e') tokens next := by
  obtain ⟨e',alike,reads⟩ := rereads.layered
  refine ⟨e',alike,?_⟩
  intro next closes
  rcases closes with is | is | is | is
  all_goals
    apply reads
    · exact ⟨by rw [is]; simp,by rw [is]; simp⟩
    · rw [is]; simp
    · intro op binary
      rw [is] at binary
      cases binary

theorem endsName_of_binaryOp {token : Token} {op : BinaryOp} (is : token.kind = op.kind) :
    EndsName token ∧ token.kind ≠ .dot := by
  rw [is]
  refine ⟨⟨?_,?_⟩,?_⟩
  · rw [is]; cases op <;> simp [BinaryOp.kind]
  · rw [is]; cases op <;> simp [BinaryOp.kind]
  · cases op <;> simp [BinaryOp.kind]

theorem layer_fits (op : BinaryOp) : 1 ≤ op.layer ∧ op.layer ≤ BinaryOp.layers := by
  cases op <;> decide

theorem Rereads.single {room : Nat} {e e' : Expr σ} {tokens : List Token} (bound : WellBound scope e)
    (apart : e.grouped = false) (single : e.whole = true) (alike : Alike Eq e.reread e')
    (reads : ∀ next, EndsName next → (e.needsParens = true → next.kind ≠ .dot) →
      Reads scope room (.primary e') tokens next) : Rereads scope room e tokens := by
  rw [← List.append_nil tokens]
  refine .heading apart ?_ alike (fun others next ends noDot => reads _ ends noDot) ?_
  · rw [reread,rereadUnder_ty bound,heading_ty bound single]
  · intro ops y like
    rw [← rereadUnder_whole single] at like
    exact ⟨y,like,fun _ _ others next w _ suffixes => suffixes⟩

theorem returns_literal {v : Value} {span : Span} (repeatable : Repeatable scope (.literal v span)) :
    Returns scope (.literal v span) := by
  intro room tokens _ kinds
  obtain ⟨token,rfl,is⟩ := List.map_eq_singleton_iff.mp kinds
  have spellable : (TokenKind.ofValue v).Spellable := ((forall_nodes_iff _).mp repeatable.legible).1
  have value : token.kind.literal? = some v.reread := by
    rw [is]
    exact TokenKind.literal_ofValue ((TokenKind.spellable_reread v).mpr spellable)
  have alike : Alike Eq (Expr.literal v span : Expr σ).reread (.literal v.reread token.span) := rfl
  exact .single repeatable.bound rfl rfl alike fun next _ _ => .literal value

theorem unary_again {op : UnaryOp} {x y : Expr σ} (applies : (op.resultType x.ty).isSome = true)
    (alike : Alike Eq x y) (span : Span) :
    bindUnary? op span y = some (.unary op y y.ty (span.union y.span)) := by
  obtain ⟨ty,typed⟩ := Option.isSome_iff_exists.mp applies
  rw [alike.ty fun _ _ same => by rw [same]] at typed
  cases UnaryOp.resultType_eq typed
  rw [bindUnary?,typed]
  rfl

theorem returns_unary {op : UnaryOp} {operand : Expr σ} {ty : Ty} {span : Span}
    (repeatable : Repeatable scope (.unary op operand ty span)) (below : Returns scope operand) :
    Returns scope (.unary op operand ty span) := by
  intro room tokens height kinds
  obtain ⟨token,inner,rfl,is,inside⟩ := List.map_eq_cons_iff.mp kinds
  obtain ⟨room,rfl⟩ := Nat.exists_eq_add_one_of_ne_zero (Nat.ne_zero_of_lt height)
  have again := below room inner (Nat.le_of_succ_le_succ height) inside
  have applies : (op.resultType operand.heading.ty).isSome = true := ((forall_nodes_iff _).mp repeatable.applies).1
  have isOp : token.kind.unaryOp? = some op := by rw [is]; exact op.unaryOp_kind
  have bound : WellBound scope operand := repeatable.bound.child List.mem_cons_self
  -- The operand is read whole, or the operator takes only its first operand and what follows goes on from there.
  cases again with
  | @group tokens x grouped alike leads =>
    have single := whole_of_grouped grouped
    have found : bindUnary? op token.span x = some (.unary op x x.ty (token.span.union x.span)) := by
      refine unary_again ?_ alike token.span
      rw [reread,rereadUnder_ty bound,← heading_ty bound single]
      exact applies
    have like : Alike Eq (Expr.unary op operand ty span).reread (.unary op x x.ty (token.span.union x.span)) := by
      rw [reread,rereadUnder,rereadUnder_whole single]
      exact ⟨rfl,alike.ty fun _ _ same => by rw [same],alike⟩
    refine .single repeatable.bound rfl single like ?_
    intro next ends noDot
    have read := leads [] next x ends (.unsuffixed (noDot rfl))
    rw [List.append_nil] at read
    exact .unary isOp read found
  | @heading front back head first apart headTy alike reads follows =>
    have found : bindUnary? op token.span first =
        some (.unary op first first.ty (token.span.union first.span)) := by
      refine unary_again ?_ alike token.span
      rw [headTy]
      exact applies
    have like : Alike Eq (.unary op head head.ty head.span)
        (.unary op first first.ty (token.span.union first.span)) :=
      ⟨rfl,alike.ty fun _ _ same => by rw [same],alike⟩
    refine @Rereads.heading σ scope (room + 1) _ (token :: front) back (.unary op head head.ty head.span) _ rfl
      headTy like ?_ ?_
    · intro others next ends noDot
      exact .unary isOp (reads others next ends fun _ => noDot rfl) found
    · intro ops y like
      rw [show under ops (.unary op head head.ty head.span) = under (ops ++ [op]) head from
        (under_append ops [op] head).symm] at like
      obtain ⟨e',again,suffixes⟩ := follows (ops ++ [op]) y like
      exact ⟨e',again,fun wider le => suffixes wider (Nat.le_of_succ_le le)⟩

theorem layered_binary {op : BinaryOp} {room : Nat} {x y z : Expr σ} {before after : List Token} {token closing : Token}
    (is : token.kind = op.kind) (closes : closing.kind = .rightParen) (found : bindBinary? op x y = some z)
    (left : ∀ n next, EndsName next → next.kind ≠ .dot → (∀ other, next.kind.binaryOp? = some other → n < other.layer) →
      Reads scope room (.layered n x) before next)
    (right : ∀ n next, EndsName next → next.kind ≠ .dot → (∀ other, next.kind.binaryOp? = some other → n < other.layer) →
      Reads scope room (.layered n y) after next) :
    Reads scope room (.layered BinaryOp.layers z) (before ++ token :: after) closing := by
  have isOp : token.kind.binaryOp? = some op := by rw [is]; exact op.binaryOp_kind
  obtain ⟨positive,bounded⟩ := layer_fits op
  obtain ⟨n,layer⟩ := Nat.exists_eq_add_one_of_ne_zero (Nat.ne_zero_of_lt positive)
  have noOp : ∀ n other, closing.kind.binaryOp? = some other → n < other.layer := by
    intro n other is
    rw [closes] at is
    cases is
  obtain ⟨ends,noDot⟩ := endsName_of_binaryOp is
  have readLeft : Reads scope room (.layered n x) before token := by
    refine left n token ends noDot ?_
    intro other isOther
    cases isOp.symm.trans isOther
    omega
  have readRight : Reads scope room (.layered n y) after closing :=
    right n closing ⟨by rw [closes]; decide,by rw [closes]; decide⟩ (by rw [closes]; decide) (noOp n)
  have chained : Reads scope room (.chained (n + 1) x z) (token :: after ++ []) closing :=
    .link isOp layer readRight found (.unchained fun other isOther => Nat.ne_of_gt (noOp _ other isOther))
  rw [List.append_nil] at chained
  exact layered_looser (layer ▸ bounded) (noOp _) (.layer readLeft chained)

theorem returns_binary {op : BinaryOp} {left right : Expr σ} {ty : Ty} {span : Span}
    (repeatable : Repeatable scope (.binary op left right ty span)) (first : Returns scope left)
    (second : Returns scope right) : Returns scope (.binary op left right ty span) := by
  intro room tokens height kinds
  obtain ⟨room,rfl⟩ := Nat.exists_eq_add_one_of_ne_zero (Nat.ne_zero_of_lt height)
  obtain ⟨low,low'⟩ := Nat.max_le.mp (Nat.le_of_succ_le_succ height)
  obtain ⟨opening,inner,rfl,opens,kinds⟩ := List.map_eq_cons_iff.mp kinds
  obtain ⟨before,behind,rfl,isLeft,kinds⟩ := List.map_eq_append_iff.mp kinds
  obtain ⟨token,behind,rfl,is,kinds⟩ := List.map_eq_cons_iff.mp kinds
  obtain ⟨after,last,rfl,isRight,kinds⟩ := List.map_eq_append_iff.mp kinds
  obtain ⟨closing,rfl,closes⟩ := List.map_eq_singleton_iff.mp kinds
  obtain ⟨x,likeLeft,readsLeft⟩ := (first room before low isLeft).layered
  obtain ⟨y,likeRight,readsRight⟩ := (second room after low' isRight).layered
  have typed : op.resultType x.ty y.ty = some ty := by
    rw [← likeLeft.ty fun _ _ same => by rw [same],← likeRight.ty fun _ _ same => by rw [same]]
    cases repeatable.bound with
    | binary one two typed =>
      rw [reread,rereadUnder_ty one,reread,rereadUnder_ty two]
      exact typed
  have found : bindBinary? op x y = some (.binary op x y ty (x.span.union y.span)) := by
    rw [bindBinary?,typed]
    rfl
  have inside := layered_binary is closes found readsLeft readsRight
  have like : Alike Eq (Expr.binary op left right ty span).reread
      (.binary op x y ty (opening.span.union closing.span)) := ⟨rfl,rfl,likeLeft,likeRight⟩
  refine .group rfl like ?_
  intro others next w _ suffixes
  have read := Reads.group opens inside closes suffixes
  simpa using read

-- What the name of an access is read as in front of its arguments, wherever the name goes on from.
def Named (scope : Scope σ) (room : Nat) (e : Expr σ) (receiver : Receiver (Expr σ)) (names : List Token) : Prop :=
  ∀ shape target, Stands receiver.anchor shape target → ∃ e', Alike Eq (e.accessUpon shape) e' ∧
    ∀ next, EndsName next → Reads scope room (.named target e') names next

theorem stands_base {base : Expr σ} {receiver : Receiver (Expr σ)} (starts : receiver.anchor = some base)
    (bound : WellBound scope base) (ops : List UnaryOp) {x : Expr σ} (alike : Alike Eq (rereadUnder ops base) x) :
    Stands receiver.anchor (receiver.anchor.map (rereadUnder ops)) (some x) := by
  rw [starts]
  exact .anchored (rereadUnder_ty bound ops) alike

theorem endsName_dot {dot : Token} (is : dot.kind = .dot) : EndsName dot :=
  ⟨by rw [is]; decide,by rw [is]; decide⟩

theorem rereads_parens {room : Nat} {e base : Expr σ} {receiver : Receiver (Expr σ)} {inside names : List Token}
    {opening closing dot : Token} (follows : e.receiver? = some receiver) (starts : receiver.anchor = some base)
    (parens : base.needsParens = true) (bound : WellBound scope base) (again : Rereads scope room base inside)
    (named : Named scope (room + 1) e receiver names) (opens : opening.kind = .leftParen)
    (closes : closing.kind = .rightParen) (isDot : dot.kind = .dot) :
    Rereads scope (room + 1) e (opening :: (inside ++ [closing,dot]) ++ names) := by
  obtain ⟨x,alike,reads⟩ := again.closed
  obtain ⟨e',like,reads'⟩ := named _ _
    (stands_base starts bound [] (alike.withSpan (opening.span.union closing.span)))
  have grouped : e.grouped = true := by
    rw [grouped_of_receiver follows,grouped_of_base starts,parens,Bool.true_or]
  rw [← reread_access follows] at like
  refine .group grouped like ?_
  intro others next w ends suffixes
  have read := Reads.group opens (reads closing (.inl closes)) closes (.suffix isDot (reads' _ ends) suffixes)
  simpa using read

theorem rereads_dot {room : Nat} {e base : Expr σ} {receiver : Receiver (Expr σ)} {inside names : List Token}
    {dot : Token} (follows : e.receiver? = some receiver) (starts : receiver.anchor = some base)
    (noParens : base.needsParens = false) (bound : WellBound scope base) (again : Rereads scope room base inside)
    (named : Named scope room e receiver names) (isDot : dot.kind = .dot) :
    Rereads scope room e (inside ++ dot :: names) := by
  have ends := endsName_dot isDot
  have group : e.grouped = base.grouped := by
    rw [grouped_of_receiver follows,grouped_of_base starts,noParens,Bool.false_or]
  cases again with
  | @group inside x grouped alike leads =>
    obtain ⟨e',like,reads⟩ := named _ _ (stands_base starts bound [] alike)
    rw [← reread_access follows] at like
    refine .group (group.trans grouped) like ?_
    intro others next w endsBehind suffixes
    have read := leads (dot :: names ++ others) next w ends (.suffix isDot (reads _ endsBehind) suffixes)
    simpa using read
  | @heading front back head first apart headTy alike reads behind =>
    have single : receiver.joined = false := by
      rw [Receiver.joined,← grouped_of_receiver follows,group,apart,starts]
      rfl
    rw [List.append_assoc]
    refine @Rereads.heading σ scope room e front (back ++ dot :: names) head first (group.trans apart) ?_ alike ?_ ?_
    · rw [headTy,heading_apart follows starts single]
    · intro others next _ _
      have read := reads (dot :: names ++ others) next ends fun needs => by rw [noParens] at needs; cases needs
      simpa using read
    · intro ops y like
      obtain ⟨x,likeBase,suffixes⟩ := behind ops y like
      obtain ⟨e',likeWhole,readsName⟩ := named _ _ (stands_base starts bound ops likeBase)
      rw [← rereadUnder_apart follows single] at likeWhole
      refine ⟨e',likeWhole,?_⟩
      intro wider le others next w endsBehind rest
      have read := suffixes wider le (dot :: names ++ others) next w ends
        (.suffix isDot ((readsName _ endsBehind).mono le) rest)
      simpa using read

theorem rereads_access {room : Nat} {e : Expr σ} {receiver : Receiver (Expr σ)} {lead names : List Token}
    (follows : e.receiver? = some receiver) (repeatable : Repeatable scope e)
    (bases : ∀ base, receiver.anchor = some base → Returns scope base) (low : receiverHeight receiver < room)
    (isLead : lead.map (·.kind) = leadKinds receiver) (named : Named scope room e receiver names) :
    Rereads scope room e (lead ++ names) := by
  cases starts : receiver.anchor with
  | none =>
    rw [leadKinds_of_anchor starts] at isLead
    cases List.map_eq_nil_iff.mp isLead
    obtain ⟨e',like,reads⟩ := named none none (by rw [starts]; exact .rooted)
    have apart : e.grouped = false := by rw [grouped_of_receiver follows,grouped_of_rooted starts]
    have single : e.whole = true := by
      have joined : receiver.joined = true := by
        rw [Receiver.joined,starts]
        exact Bool.or_true _
      cases e with
      | literal | unary | binary => cases follows
      | member | call | index => cases follows; exact joined
    have same := reread_access follows
    rw [starts,Option.map_none] at same
    rw [← same] at like
    exact .single repeatable.bound apart single like fun next ends _ => .name (reads next ends)
  | some base =>
    have bound := base_induction WellBound.child repeatable.bound follows starts
    have below := height_of_base starts
    rw [leadKinds_of_base starts,pointAt] at isLead
    -- Parentheses around the tree in front cost one level of nesting.
    by_cases parens : base.needsParens = true
    · rw [if_pos parens] at isLead
      obtain ⟨room,rfl⟩ := Nat.exists_eq_add_one_of_ne_zero (Nat.ne_zero_of_lt low)
      obtain ⟨opening,inner,rfl,opens,isLead⟩ := List.map_eq_cons_iff.mp isLead
      obtain ⟨inside,last,rfl,isInside,isLead⟩ := List.map_eq_append_iff.mp isLead
      obtain ⟨closing,last,rfl,closes,isLead⟩ := List.map_eq_cons_iff.mp isLead
      obtain ⟨dot,nothing,rfl,isDot,isLead⟩ := List.map_eq_cons_iff.mp isLead
      cases List.map_eq_nil_iff.mp isLead
      have again := bases base starts room inside (Nat.le_of_lt_succ (Nat.lt_of_le_of_lt below low)) isInside
      exact rereads_parens follows starts parens bound again named opens closes isDot
    · rw [if_neg parens] at isLead
      obtain ⟨inside,last,rfl,isInside,isLead⟩ := List.map_eq_append_iff.mp isLead
      obtain ⟨dot,nothing,rfl,isDot,isLead⟩ := List.map_eq_cons_iff.mp isLead
      cases List.map_eq_nil_iff.mp isLead
      have again := bases base starts room inside (Nat.le_trans below (Nat.le_of_lt low)) isInside
      rw [List.append_assoc]
      exact rereads_dot follows starts (Bool.eq_false_iff.mpr parens) bound again named isDot

theorem texts_dotted {names : List String} (filled : names ≠ []) (start : Nat) :
    (DottedName.ofText (dotted names) start).texts = names.flatMap pieces := by
  rw [DottedName.texts_ofText,pieces_dotted filled]

theorem members_reread {e : Expr σ} (traceable : Traceable scope e) (named : e.path ≠ [])
    {shape target : Option (Expr σ)} (stands : Stands e.anchor shape target) (start : Nat) :
    ∃ x, scope.members? (.ofText (dotted e.path) start) target = some x ∧ Alike Eq (e.upon shape) x :=
  members_again traceable.bound traceable.legible ((forall_nodes_iff _).mp traceable.clear).1 stands
    (texts_dotted named start)

theorem upon_member {receiver : Receiver (Expr σ)} {shape target : Option (Expr σ)}
    (stands : Stands receiver.anchor shape target) (m : Member σ) (span : Span) :
    (Expr.member receiver m span).upon shape = .member (receiver.upon shape) m span := by
  cases receiver with
  | context | type => cases stands; rfl
  | value x => cases shape <;> rfl

theorem member_reread {receiver : Receiver (Expr σ)} {m : Member σ} {span : Span}
    (traceable : Traceable scope (.member receiver m span)) {shape target : Option (Expr σ)}
    (stands : Stands receiver.anchor shape target) (start : Nat) :
    ∃ x, scope.members? (.ofText (dotted (receiver.names ++ [m.name])) start) target = some x ∧
      Alike Eq (.member (receiver.upon shape) m span) x := by
  have filled : (Expr.member receiver m span).path ≠ [] := by
    rw [path_member]
    simp
  have whole := stands
  rw [← anchor_member receiver m span] at whole
  obtain ⟨x,found,alike⟩ := members_reread traceable filled whole start
  rw [path_member] at found
  rw [upon_member stands] at alike
  exact ⟨x,found,alike⟩

theorem callee_reread {receiver : Receiver (Expr σ)} {m : Method σ} {args : List (Expr σ)} {span : Span}
    (traceable : Traceable scope (.call receiver m args span)) {shape target : Option (Expr σ)}
    (stands : Stands receiver.anchor shape target) (start : Nat) :
    ∃ other info segment, scope.callee? (.ofText (dotted (receiver.names ++ [m.name])) start) target =
        some ⟨other,info,segment⟩ ∧ segment.text = m.name ∧ ReceiversAlike Eq (receiver.upon shape) other ∧
      (info.table receiver.isStatic).findMethod m.name (args.map Expr.ty) = some m := by
  have plain : '.' ∉ m.name.toList := ((forall_nodes_iff _).mp traceable.legible).1
  have below : ∀ x, receiver = .value x → Traceable scope x := by
    intro x same
    exact traceable.child (mem_children_of_receiver (by rw [← same]; rfl))
  have texts : (DottedName.ofText (dotted (receiver.names ++ [m.name])) start).texts =
      receiver.parts ++ [m.name] := by
    rw [texts_dotted (by simp),List.flatMap_append,List.flatMap_cons,List.flatMap_nil,pieces_plain plain]
    rfl
  cases traceable.bound with
  | @call _ _ _ _ info _ _ provided found =>
    obtain ⟨other,segment,resolved,name,like⟩ := callee_again (fun x same => (below x same).bound)
      (fun x same => (below x same).legible) (fun x same => ((forall_nodes_iff _).mp (below x same).clear).1)
      ((forall_nodes_iff _).mp traceable.clear).1 provided stands texts
    exact ⟨other,info,segment,resolved,name,like,found⟩

theorem named_member {room : Nat} {receiver : Receiver (Expr σ)} {m : Member σ} {span : Span} {token : Token}
    (traceable : Traceable scope (.member receiver m span))
    (is : token.kind = .name (dotted (receiver.names ++ [m.name]))) :
    Named scope room (.member receiver m span) receiver [token] := by
  intro shape target stands
  obtain ⟨x,found,alike⟩ := member_reread traceable stands token.span.start
  exact ⟨x,alike,fun next ends => .member is ends.noCall ends.noIndex found⟩

theorem separated_again {args : List (Expr σ)} {room : Nat} {tokens : List Token} {closing : Token}
    {close : TokenKind} (each : ∀ arg ∈ args, Returns scope arg) (filled : args ≠ [])
    (closer : close = .rightParen ∨ close = .rightBracket) (is : closing.kind = close)
    (low : listHeight args ≤ room) (kinds : tokens.map (·.kind) = argKinds args) :
    ∃ es, ListsAlike Eq (rereadArgs args) es ∧ Reads scope (room + 1) (.separated close es) tokens closing := by
  induction args generalizing tokens with
  | nil => exact absurd rfl filled
  | cons e es ih =>
    obtain ⟨lowFirst,lowOthers⟩ := Nat.max_le.mp low
    have first := each e List.mem_cons_self
    cases es with
    | nil =>
      obtain ⟨x,alike,reads⟩ := (first room tokens lowFirst kinds).closed
      have ends : closing.kind = .rightParen ∨ closing.kind = .rightBracket ∨ closing.kind = .comma ∨
          closing.kind = .ending := by
        rw [is]
        rcases closer with closer | closer <;> simp [closer]
      have noComma : close ≠ .comma := by
        rcases closer with rfl | rfl <;> decide
      exact ⟨[x],⟨alike,trivial⟩,.last (reads closing ends) is noComma⟩
    | cons next es =>
      rw [argKinds] at kinds
      · obtain ⟨before,behind,rfl,isFirst,kinds⟩ := List.map_eq_append_iff.mp kinds
        obtain ⟨comma,after,rfl,isComma,isOthers⟩ := List.map_eq_cons_iff.mp kinds
        obtain ⟨x,alike,reads⟩ := (first room before lowFirst isFirst).closed
        obtain ⟨xs,alikes,others⟩ := ih (fun arg present => each arg (List.mem_cons_of_mem _ present))
          (List.cons_ne_nil _ _) lowOthers isOthers
        exact ⟨x :: xs,⟨alike,alikes⟩,.more (reads comma (.inr (.inr (.inl isComma)))) isComma others⟩
      · exact List.cons_ne_nil _ _

theorem arguments_again {args : List (Expr σ)} {room : Nat} {inner : List Token} {closing : Token}
    {close : TokenKind} (opening : Token) (each : ∀ arg ∈ args, Returns scope arg)
    (closer : close = .rightParen ∨ close = .rightBracket) (is : closing.kind = close)
    (low : listHeight args ≤ room) (kinds : inner.map (·.kind) = argKinds args) :
    ∃ es, ListsAlike Eq (rereadArgs args) es ∧ ∀ next,
      Reads scope (room + 1) (.arguments close es closing.span) (opening :: (inner ++ [closing])) next := by
  by_cases empty : args = []
  · subst empty
    cases List.map_eq_nil_iff.mp kinds
    exact ⟨[],trivial,fun next => .noArguments is⟩
  · obtain ⟨es,alike,inside⟩ := separated_again each empty closer is low kinds
    exact ⟨es,alike,fun next => .someArguments inside is⟩

theorem types_again {args es : List (Expr σ)} (bound : ∀ arg ∈ args, WellBound scope arg)
    (alike : ListsAlike Eq (rereadArgs args) es) : es.map Expr.ty = args.map Expr.ty := by
  rw [← rereadArgs_types bound]
  exact (alike.map_eq fun _ _ _ same => same.ty fun _ _ eq => by rw [eq]).symm

theorem isStatic_upon {receiver other : Receiver (Expr σ)} {shape : Option (Expr σ)}
    (alike : ReceiversAlike Eq (receiver.upon shape) other) : receiver.isStatic = other.isStatic := by
  cases receiver <;> cases other <;> first | rfl | exact alike.elim

theorem call_again {receiver other : Receiver (Expr σ)} {m : Method σ} {args es : List (Expr σ)}
    {info : TypeInfo σ} {segment : Segment} (static : receiver.isStatic = other.isStatic)
    (name : segment.text = m.name)
    (found : (info.table receiver.isStatic).findMethod m.name (args.map Expr.ty) = some m)
    (types : es.map Expr.ty = args.map Expr.ty) (span closing : Span) :
    Scope.call? ⟨other,info,segment⟩ es span closing =
      some (.call other m es ((Scope.startOf other span).union closing)) := by
  have overload : Scope.findOverload ⟨other,info,segment⟩ (es.map Expr.ty) = some m := by
    rw [types,Scope.findOverload,WellBound.isStatic_eq,← static,name]
    cases kind : receiver.isStatic with
    | true =>
      rw [kind] at found
      exact found
    | false =>
      rw [kind] at found
      exact found
  rw [Scope.call?,overload]
  rfl

theorem named_call {room : Nat} {receiver : Receiver (Expr σ)} {m : Method σ} {args : List (Expr σ)}
    {span : Span} {inner : List Token} {token opening closing : Token}
    (traceable : Traceable scope (.call receiver m args span))
    (each : ∀ arg ∈ args, Returns scope arg) (low : listHeight args ≤ room)
    (is : token.kind = .name (dotted (receiver.names ++ [m.name]))) (opens : opening.kind = .leftParen)
    (kinds : inner.map (·.kind) = argKinds args) (closes : closing.kind = .rightParen) :
    Named scope (room + 1) (.call receiver m args span) receiver (token :: opening :: (inner ++ [closing])) := by
  intro shape target stands
  obtain ⟨es,alike,inside⟩ := arguments_again opening each (.inl rfl) closes low kinds
  obtain ⟨other,info,segment,resolved,name,like,found⟩ := callee_reread traceable stands token.span.start
  have bound : ∀ arg ∈ args, WellBound scope arg :=
    fun arg present => traceable.bound.child (List.mem_append_right _ present)
  have called := call_again (isStatic_upon like) name found (types_again bound alike) token.span closing.span
  have whole : Alike Eq ((Expr.call receiver m args span).accessUpon shape)
      (.call other m es ((Scope.startOf other token.span).union closing.span)) := ⟨rfl,like,alike⟩
  exact ⟨_,whole,fun next _ => .called is opens resolved (inside next) called⟩

theorem index_again {ix : Indexer σ} {args es : List (Expr σ)} {info : TypeInfo σ}
    (found : info.findIndexer (args.map Expr.ty) = some ix) (types : es.map Expr.ty = args.map Expr.ty)
    (receiver : Receiver (Expr σ)) (span closing : Span) : Scope.index? receiver info es span closing =
      some (.index receiver ix es ((Scope.startOf receiver span).union closing)) := by
  rw [Scope.index?,types,found]
  rfl

theorem rereads_bracket {room : Nat} {ix : Indexer σ} {args : List (Expr σ)} {span : Span} {inner : List Token}
    {opening closing : Token} (repeatable : Repeatable scope (.index .context ix args span))
    (each : ∀ arg ∈ args, Returns scope arg) (low : listHeight args ≤ room) (opens : opening.kind = .leftBracket)
    (kinds : inner.map (·.kind) = argKinds args) (closes : closing.kind = .rightBracket) :
    Rereads scope (room + 1) (.index .context ix args span) (opening :: (inner ++ [closing])) := by
  obtain ⟨es,alike,inside⟩ := arguments_again opening each (.inr rfl) closes low kinds
  cases repeatable.bound with
  | @index _ _ _ _ info _ bound _ provided found =>
    have indexed : scope.indexed? none = some (.context,info) := by
      rw [Scope.indexed?,provided]
      rfl
    have again := index_again found (types_again bound alike) .context opening.span closing.span
    have like : Alike Eq (Expr.index .context ix args span).reread
        (.index .context ix es (opening.span.union closing.span)) := ⟨rfl,trivial,alike⟩
    exact .single repeatable.bound rfl rfl like fun next _ _ => .bracket opens indexed (inside next) again

theorem indexed_again {x y : Expr σ} {info : TypeInfo σ} {shape target : Option (Expr σ)}
    (stands : Stands x.anchor shape target) (like : Alike Eq (x.upon shape) y)
    (provided : scope.provider? (.value x) = some info) : scope.indexed? (some y) = some (.value y,info) := by
  have ty : y.ty = x.ty := by
    rw [← like.ty fun _ _ same => by rw [same]]
    exact upon_ty stands
  have registered : scope.provider? (.value y) = some info := by
    rw [Scope.provider?,ty]
    exact provided
  rw [Scope.indexed?,registered]
  rfl

theorem named_index {room : Nat} {x : Expr σ} {ix : Indexer σ} {args : List (Expr σ)} {span : Span}
    {inner : List Token} {token opening closing : Token}
    (traceable : Traceable scope (.index (.value x) ix args span)) (named : x.path ≠ [])
    (each : ∀ arg ∈ args, Returns scope arg) (low : listHeight args ≤ room)
    (is : token.kind = .name (dotted x.path)) (opens : opening.kind = .leftBracket)
    (kinds : inner.map (·.kind) = argKinds args) (closes : closing.kind = .rightBracket) :
    Named scope (room + 1) (.index (.value x) ix args span) (.value x)
      (token :: opening :: (inner ++ [closing])) := by
  intro shape target stands
  obtain ⟨es,alike,inside⟩ := arguments_again opening each (.inr rfl) closes low kinds
  obtain ⟨y,walked,like⟩ := members_reread (traceable.child (mem_children_of_receiver rfl)) named stands
    token.span.start
  cases traceable.bound with
  | @index _ _ _ _ info _ bound _ provided found =>
    have indexed := indexed_again stands like provided
    have again := index_again found (types_again bound alike) (.value y) token.span closing.span
    have whole : Alike Eq ((Expr.index (.value x) ix args span).accessUpon shape)
        (.index (.value y) ix es (y.span.union closing.span)) := ⟨rfl,like,alike⟩
    exact ⟨_,whole,fun next _ => .indexed is opens walked indexed (inside next) again⟩

theorem returns_member {receiver : Receiver (Expr σ)} {m : Member σ} {span : Span}
    (repeatable : Repeatable scope (.member receiver m span))
    (bases : ∀ base, receiver.anchor = some base → Returns scope base) :
    Returns scope (.member receiver m span) := by
  intro room tokens height kinds
  obtain ⟨before,last,rfl,isLead,kinds⟩ := List.map_eq_append_iff.mp kinds
  obtain ⟨token,rfl,is⟩ := List.map_eq_singleton_iff.mp kinds
  exact rereads_access rfl repeatable bases height isLead (named_member repeatable.toTraceable is)

theorem returns_call {receiver : Receiver (Expr σ)} {m : Method σ} {args : List (Expr σ)} {span : Span}
    (repeatable : Repeatable scope (.call receiver m args span))
    (bases : ∀ base, receiver.anchor = some base → Returns scope base)
    (each : ∀ arg ∈ args, Returns scope arg) : Returns scope (.call receiver m args span) := by
  intro room tokens height kinds
  obtain ⟨room,rfl⟩ := Nat.exists_eq_add_one_of_ne_zero (Nat.ne_zero_of_lt height)
  obtain ⟨low,lowArgs⟩ := Nat.max_le.mp (Nat.le_of_succ_le_succ height)
  obtain ⟨before,behind,rfl,isLead,kinds⟩ := List.map_eq_append_iff.mp kinds
  obtain ⟨token,behind,rfl,is,kinds⟩ := List.map_eq_cons_iff.mp kinds
  obtain ⟨opening,behind,rfl,opens,kinds⟩ := List.map_eq_cons_iff.mp kinds
  obtain ⟨inner,last,rfl,isArgs,kinds⟩ := List.map_eq_append_iff.mp kinds
  obtain ⟨closing,rfl,closes⟩ := List.map_eq_singleton_iff.mp kinds
  exact rereads_access rfl repeatable bases (Nat.lt_succ_of_le low) isLead
    (named_call repeatable.toTraceable each lowArgs is opens isArgs closes)

theorem returns_index {receiver : Receiver (Expr σ)} {ix : Indexer σ} {args : List (Expr σ)} {span : Span}
    (repeatable : Repeatable scope (.index receiver ix args span))
    (bases : ∀ base, receiver.anchor = some base → Returns scope base)
    (each : ∀ arg ∈ args, Returns scope arg) : Returns scope (.index receiver ix args span) := by
  intro room tokens height kinds
  obtain ⟨room,rfl⟩ := Nat.exists_eq_add_one_of_ne_zero (Nat.ne_zero_of_lt height)
  obtain ⟨low,lowArgs⟩ := Nat.max_le.mp (Nat.le_of_succ_le_succ height)
  obtain ⟨before,behind,rfl,isTarget,kinds⟩ := List.map_eq_append_iff.mp kinds
  obtain ⟨opening,behind,rfl,opens,kinds⟩ := List.map_eq_cons_iff.mp kinds
  obtain ⟨inner,last,rfl,isArgs,kinds⟩ := List.map_eq_append_iff.mp kinds
  obtain ⟨closing,rfl,closes⟩ := List.map_eq_singleton_iff.mp kinds
  cases receiver with
  | type =>
    cases repeatable.bound with
    | index _ _ dynamic => cases dynamic
  | context =>
    cases List.map_eq_nil_iff.mp isTarget
    exact rereads_bracket repeatable each lowArgs opens isArgs closes
  | value x =>
    have named : x.path ≠ [] := ((forall_nodes_iff _).mp repeatable.legible).1 x rfl
    rw [targetKinds,kinds_of_path named] at isTarget
    obtain ⟨front,last,rfl,isLead,kinds⟩ := List.map_eq_append_iff.mp isTarget
    obtain ⟨token,rfl,is⟩ := List.map_eq_singleton_iff.mp kinds
    rw [List.append_assoc]
    exact rereads_access rfl repeatable bases (Nat.lt_succ_of_le low) isLead
      (named_index repeatable.toTraceable named each lowArgs is opens isArgs closes)

-- Every tree returns from its printed form, from the names it is built of inside out.
theorem returns (e : Expr σ) (repeatable : Repeatable scope e) : Returns scope e := by
  induction e using anchor_induction with
  | literal v span => exact returns_literal repeatable
  | unary op operand ty span below =>
    exact returns_unary repeatable (below (repeatable.child (by simp [children])))
  | binary op left right ty span first second =>
    exact returns_binary repeatable (first (repeatable.child (by simp [children])))
      (second (repeatable.child (by simp [children])))
  | member receiver m span lead =>
    have bases := fun base starts => lead base starts (base_induction Repeatable.child repeatable rfl starts)
    exact returns_member repeatable bases
  | call receiver m args span lead each =>
    have bases := fun base starts => lead base starts (base_induction Repeatable.child repeatable rfl starts)
    exact returns_call repeatable bases fun arg present =>
      each arg present (repeatable.child (by simp [children,present]))
  | index receiver ix args span lead each =>
    have bases := fun base starts => lead base starts (base_induction Repeatable.child repeatable rfl starts)
    exact returns_index repeatable bases fun arg present =>
      each arg present (repeatable.child (by simp [children,present]))

end Expr
end TypedFormula
