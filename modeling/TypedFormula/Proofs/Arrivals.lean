import TypedFormula.Proofs.WellBound

namespace TypedFormula

variable {σ : Type}

-- A call or an access in brackets whose receiver and arguments are bound, so that only the method or the
-- indexer itself is left to be found.
inductive Site (σ : Type) where
  | call (callee : Scope.Callee σ) (args : List (Expr σ)) (span closing : Span)
  | index (receiver : Receiver (Expr σ)) (info : TypeInfo σ) (args : List (Expr σ))
      (span opening closing : Span)

namespace Site

def receiver : Site σ → Receiver (Expr σ)
  | .call callee _ _ _ => callee.receiver
  | .index receiver _ _ _ _ _ => receiver

def info : Site σ → TypeInfo σ
  | .call callee _ _ _ => callee.info
  | .index _ info _ _ _ _ => info

def args : Site σ → List (Expr σ)
  | .call _ args _ _ => args
  | .index _ _ args _ _ _ => args

def bind : Site σ → Binding (Expr σ)
  | .call callee args span closing => Scope.call callee args span closing
  | .index receiver info args span opening closing => Scope.index receiver info args span opening closing

def bind? : Site σ → Option (Expr σ)
  | .call callee args span closing => Scope.call? callee args span closing
  | .index receiver info args span _ closing => Scope.index? receiver info args span closing

-- No method of that name that is registered for the receiver, or no indexer, takes exactly the types of
-- the arguments.
def Unanswered : Site σ → Prop
  | .call callee args _ _ => ∀ m ∈ (callee.info.table callee.isStatic).methods,
      m.name = callee.method.text → m.params ≠ args.map Expr.ty
  | .index _ info args _ _ _ => ∀ ix ∈ info.indexers, ix.params ≠ args.map Expr.ty

-- The kind of fault that a site without an accessor has, and the fault itself. A call is blamed on the
-- name of its method, and an access in brackets on its brackets.
def kind : Site σ → FaultKind
  | .call _ _ _ _ => .noMatchingMethod
  | .index _ _ _ _ _ _ => .noMatchingIndexer

def fault : Site σ → Fault
  | .call callee args _ _ =>
    let types := args.map Expr.ty
    let cause : Cause :=
      if callee.info.hasMethod callee.method.text callee.isStatic then
        .noOverload callee.info.name callee.method.text types
      else .noMethod callee.info.name callee.isStatic callee.method.text types
    ⟨cause,callee.method.span⟩
  | .index _ info args _ opening closing => ⟨.noIndexer info.name (args.map Expr.ty),opening.union closing⟩

theorem kind_fault (site : Site σ) : site.fault.cause.kind = site.kind := by
  cases site with
  | call callee args span closing => unfold fault; dsimp only; split <;> rfl
  | index => rfl

theorem findOverload_eq (callee : Scope.Callee σ) (types : List Ty) :
    Scope.findOverload callee types =
      (callee.info.table callee.isStatic).findMethod callee.method.text types := by
  unfold Scope.findOverload TypeInfo.table
  split <;> rfl

theorem unanswered_iff (site : Site σ) : site.Unanswered ↔ site.bind? = none := by
  cases site with
  | call callee args span closing =>
    simp [bind?,Scope.call?,findOverload_eq,MemberTable.findMethod,Unanswered]
  | index receiver info args span opening closing =>
    simp [bind?,Scope.index?,TypeInfo.findIndexer,Unanswered]

theorem bind_agrees (site : Site σ) : Binding.Agrees site.bind site.bind? := by
  cases site with
  | call => exact Scope.call_agrees _ _ _ _
  | index => exact Scope.index_agrees _ _ _ _ _ _

theorem bind_unanswered {site : Site σ} (unanswered : site.Unanswered) (notes : List Note) :
    site.bind notes = .error site.fault notes := by
  have none := (unanswered_iff site).mp unanswered
  cases site with
  | call callee args span closing =>
    have absent := Option.map_eq_none_iff.mp none
    unfold bind Scope.call
    dsimp only
    rw [absent]
    rfl
  | index receiver info args span opening closing =>
    have absent := Option.map_eq_none_iff.mp none
    unfold bind Scope.index
    dsimp only
    rw [absent]
    rfl

theorem bind_fails {site : Site σ} {notes more : List Note} {fault : Fault}
    (failed : site.bind notes = .error fault more) : site.Unanswered ∧ fault = site.fault := by
  have unanswered : site.Unanswered := by
    refine (unanswered_iff site).mpr ?_
    cases found : site.bind? with
    | none => rfl
    | some e =>
      obtain ⟨_,bound⟩ := (site.bind_agrees notes e).mpr found
      cases bound.symm.trans failed
  refine ⟨unanswered,?_⟩
  cases (bind_unanswered unanswered notes).symm.trans failed
  rfl

end Site

-- What is being read when the parser is under way to a site: the parts, without the trees that would come
-- of them.
inductive Aim (σ : Type) where
  | primary
  | suffixed (first : Expr σ)
  | named (target : Option (Expr σ))
  | layered (n : Nat)
  | chained (n : Nat) (left : Expr σ)
  | separated (close : TokenKind)
  | arguments (close : TokenKind)

-- From the tokens of an aim the parser arrives at the site, with `next` in sight. The site is outermost if
-- the tree of the aim would be that of the site.
inductive Arrives (scope : Scope σ) (site : Site σ) (next : Token) :
    Bool → Nat → Aim σ → List Token → Prop where
  | inGroup {outer room opening tokens} (opens : opening.kind = .leftParen)
      (inside : Arrives scope site next outer room (.layered BinaryOp.layers) tokens) :
      Arrives scope site next false (room + 1) .primary (opening :: tokens)
  | afterGroup {outer room opening tokens e closing more} (opens : opening.kind = .leftParen)
      (inside : Reads scope room (.layered BinaryOp.layers e) tokens closing)
      (closes : closing.kind = .rightParen)
      (later : Arrives scope site next outer (room + 1)
        (.suffixed (e.withSpan (opening.span.union closing.span))) more) :
      Arrives scope site next outer (room + 1) .primary (opening :: tokens ++ closing :: more)
  | inUnary {outer room token op tokens} (is : token.kind.unaryOp? = some op)
      (inside : Arrives scope site next outer room .primary tokens) :
      Arrives scope site next false (room + 1) .primary (token :: tokens)
  | inBracket {outer room token receiver info tokens} (is : token.kind = .leftBracket)
      (provided : scope.indexed? none = some (receiver,info))
      (inside : Arrives scope site next outer room (.arguments .rightBracket) (token :: tokens)) :
      Arrives scope site next false room .primary (token :: tokens)
  | bracket {room token receiver info args closing tokens} (is : token.kind = .leftBracket)
      (provided : scope.indexed? none = some (receiver,info))
      (inside : Reads scope room (.arguments .rightBracket args closing) (token :: tokens) next)
      (here : site = .index receiver info args token.span token.span closing) :
      Arrives scope site next true room .primary (token :: tokens)
  | name {outer room tokens} (named : Arrives scope site next outer room (.named none) tokens) :
      Arrives scope site next outer room .primary tokens
  | inIndexed {outer room token spelling target x receiver info opening tokens}
      (is : token.kind = .name spelling) (opens : opening.kind = .leftBracket)
      (walked : scope.members? (.ofText spelling token.span.start) target = some x)
      (provided : scope.indexed? (some x) = some (receiver,info))
      (inside : Arrives scope site next outer room (.arguments .rightBracket) (opening :: tokens)) :
      Arrives scope site next false room (.named target) (token :: opening :: tokens)
  | indexed {room token spelling target x receiver info opening tokens args closing}
      (is : token.kind = .name spelling) (opens : opening.kind = .leftBracket)
      (walked : scope.members? (.ofText spelling token.span.start) target = some x)
      (provided : scope.indexed? (some x) = some (receiver,info))
      (inside : Reads scope room (.arguments .rightBracket args closing) (opening :: tokens) next)
      (here : site = .index receiver info args token.span opening.span closing) :
      Arrives scope site next true room (.named target) (token :: opening :: tokens)
  | inCalled {outer room token spelling target callee opening tokens}
      (is : token.kind = .name spelling) (opens : opening.kind = .leftParen)
      (resolved : scope.callee? (.ofText spelling token.span.start) target = some callee)
      (inside : Arrives scope site next outer room (.arguments .rightParen) (opening :: tokens)) :
      Arrives scope site next false room (.named target) (token :: opening :: tokens)
  | called {room token spelling target callee opening tokens args closing}
      (is : token.kind = .name spelling) (opens : opening.kind = .leftParen)
      (resolved : scope.callee? (.ofText spelling token.span.start) target = some callee)
      (inside : Reads scope room (.arguments .rightParen args closing) (opening :: tokens) next)
      (here : site = .call callee args token.span closing) :
      Arrives scope site next true room (.named target) (token :: opening :: tokens)
  | arguments {outer room opening tokens close}
      (inside : Arrives scope site next outer room (.separated close) tokens) :
      Arrives scope site next false room (.arguments close) (opening :: tokens)
  | inFirst {outer room tokens close}
      (inside : Arrives scope site next outer room (.layered BinaryOp.layers) tokens) :
      Arrives scope site next false (room + 1) (.separated close) tokens
  | inRest {outer room tokens e comma others close}
      (first : Reads scope room (.layered BinaryOp.layers e) tokens comma) (is : comma.kind = .comma)
      (later : Arrives scope site next outer (room + 1) (.separated close) others) :
      Arrives scope site next false (room + 1) (.separated close) (tokens ++ comma :: others)
  | inSuffix {outer room dot tokens x} (is : dot.kind = .dot)
      (named : Arrives scope site next outer room (.named (some x)) tokens) :
      Arrives scope site next outer room (.suffixed x) (dot :: tokens)
  | afterSuffix {outer room dot tokens x y others} (is : dot.kind = .dot)
      (named : Reads scope room (.named (some x) y) tokens (ahead others next))
      (later : Arrives scope site next outer room (.suffixed y) others) :
      Arrives scope site next outer room (.suffixed x) (dot :: tokens ++ others)
  | inPrimary {outer room tokens} (first : Arrives scope site next outer room .primary tokens) :
      Arrives scope site next outer room (.layered 0) tokens
  | afterPrimary {outer room tokens x others}
      (first : Reads scope room (.primary x) tokens (ahead others next))
      (later : Arrives scope site next outer room (.suffixed x) others) :
      Arrives scope site next outer room (.layered 0) (tokens ++ others)
  | inLeft {outer room n tokens} (left : Arrives scope site next outer room (.layered n) tokens) :
      Arrives scope site next outer room (.layered (n + 1)) tokens
  | inChain {outer room n tokens x others}
      (left : Reads scope room (.layered n x) tokens (ahead others next))
      (later : Arrives scope site next outer room (.chained (n + 1) x) others) :
      Arrives scope site next false room (.layered (n + 1)) (tokens ++ others)
  | inRight {outer room n token op tokens x} (is : token.kind.binaryOp? = some op) (fits : op.layer = n + 1)
      (right : Arrives scope site next outer room (.layered n) tokens) :
      Arrives scope site next false room (.chained (n + 1) x) (token :: tokens)
  | afterRight {outer room n token op tokens x y z others} (is : token.kind.binaryOp? = some op)
      (fits : op.layer = n + 1) (right : Reads scope room (.layered n y) tokens (ahead others next))
      (typed : bindBinary? op x y = some z)
      (later : Arrives scope site next outer room (.chained (n + 1) z) others) :
      Arrives scope site next false room (.chained (n + 1) x) (token :: tokens ++ others)

def Aim.startsWith : Aim σ → Token → Prop
  | .named _, token => ∃ spelling, token.kind = .name spelling
  | .suffixed _, token => token.kind = .dot
  | .chained _ _, token => ∃ op, token.kind.binaryOp? = some op
  | .arguments _, _ => True
  | _, token => token.kind.startsOperand = true

variable {scope : Scope σ} {site : Site σ} {next : Token} {outer : Bool} {room : Nat} {aim : Aim σ}
  {tokens : List Token}

theorem Arrives.starts (arrives : Arrives scope site next outer room aim tokens) :
    ∃ first rest, tokens = first :: rest ∧ aim.startsWith first := by
  induction arrives with
  | inGroup opens => exact ⟨_,_,rfl,by simp [Aim.startsWith,TokenKind.startsOperand,opens]⟩
  | afterGroup opens => exact ⟨_,_,rfl,by simp [Aim.startsWith,TokenKind.startsOperand,opens]⟩
  | inUnary is => exact ⟨_,_,rfl,by simp [Aim.startsWith,TokenKind.startsOperand,is]⟩
  | inBracket is | bracket is => exact ⟨_,_,rfl,by simp [Aim.startsWith,TokenKind.startsOperand,is]⟩
  | name named ih =>
    obtain ⟨first,rest,split,spelling,is⟩ := ih
    exact ⟨first,rest,split,by simp [Aim.startsWith,TokenKind.startsOperand,is]⟩
  | inIndexed is | indexed is | inCalled is | called is => exact ⟨_,_,rfl,_,is⟩
  | arguments => exact ⟨_,_,rfl,trivial⟩
  | inFirst inside ih => exact ih
  | inRest first =>
    obtain ⟨token,rest,rfl,starts⟩ := first.starts rfl
    exact ⟨token,_,rfl,starts⟩
  | inSuffix is | afterSuffix is => exact ⟨_,_,rfl,is⟩
  | inPrimary first ih => exact ih
  | afterPrimary first =>
    obtain ⟨token,rest,rfl,starts⟩ := first.starts rfl
    exact ⟨token,_,rfl,starts⟩
  | inLeft left ih => exact ih
  | inChain left =>
    obtain ⟨token,rest,rfl,starts⟩ := left.starts rfl
    exact ⟨token,_,rfl,starts⟩
  | inRight is | afterRight is => exact ⟨_,_,rfl,_,is⟩

theorem Arrives.layered (arrives : Arrives scope site next outer room (.layered 0) tokens) (n : Nat) :
    Arrives scope site next outer room (.layered n) tokens := by
  induction n with
  | zero => exact arrives
  | succ n ih => exact .inLeft ih

def Aim.Starts (p : Expr σ → Prop) : Aim σ → Prop
  | .suffixed first => p first
  | .named target => ∀ x, target = some x → p x
  | .chained _ left => p left
  | _ => True

-- The receiver of a site and its arguments are bound, and the description that it looks in is that of its
-- receiver's type.
structure Site.Bound (scope : Scope σ) (site : Site σ) : Prop where
  receives : WellBound.Receives scope site.receiver site.info
  arguments : ∀ arg ∈ site.args, WellBound scope arg

theorem Arrives.bound (arrives : Arrives scope site next outer room aim tokens)
    (starts : aim.Starts (WellBound scope)) : site.Bound scope := by
  induction arrives with
  | inGroup _ _ ih => exact ih trivial
  | afterGroup _ inside _ _ ih => exact ih ((WellBound.ofReads inside).withSpan _)
  | inUnary _ _ ih => exact ih trivial
  | inBracket _ _ _ ih => exact ih trivial
  | bracket _ provided inside here =>
    subst here
    exact ⟨(WellBound.indexed (fun _ same => by cases same) provided).1,WellBound.ofReads inside⟩
  | name _ ih => exact ih fun _ same => by cases same
  | inIndexed _ _ _ _ _ ih => exact ih trivial
  | indexed _ _ walked provided inside here =>
    subst here
    have below := WellBound.members starts walked
    exact ⟨(WellBound.indexed (fun _ same => by cases same; exact below) provided).1,WellBound.ofReads inside⟩
  | inCalled _ _ _ _ ih => exact ih trivial
  | called _ _ resolved inside here =>
    subst here
    exact ⟨WellBound.callee starts resolved,WellBound.ofReads inside⟩
  | arguments _ ih => exact ih trivial
  | inFirst _ ih => exact ih trivial
  | inRest _ _ _ ih => exact ih trivial
  | inSuffix _ _ ih => exact ih fun _ same => by cases same; exact starts
  | afterSuffix _ named _ ih => exact ih (WellBound.ofReads named fun _ same => by cases same; exact starts)
  | inPrimary _ ih => exact ih trivial
  | afterPrimary first _ ih => exact ih (WellBound.ofReads first)
  | inLeft _ ih => exact ih trivial
  | inChain left _ ih => exact ih (WellBound.ofReads left)
  | inRight _ _ _ ih => exact ih trivial
  | afterRight _ _ right typed _ ih => exact ih (.bindBinary starts (WellBound.ofReads right) typed)

-- The part that would come of an aim.
def Aim.part (e : Expr σ) : Aim σ → Option (Part σ)
  | .primary => some (.primary e)
  | .suffixed first => some (.suffixed first e)
  | .named target => some (.named target e)
  | .layered n => some (.layered n e)
  | _ => none

-- Nothing that follows a site goes on with its tree.
def Token.Rests (next : Token) : Prop :=
  next.kind ≠ .dot ∧ next.kind.binaryOp? = none

theorem Arrives.reads (arrives : Arrives scope site next outer room aim tokens) (outermost : outer = true)
    {e : Expr σ} (found : site.bind? = some e) (rests : next.Rests) :
    ∃ part, aim.part e = some part ∧ Reads scope room part tokens next := by
  -- Every rule that leaves the site outermost ends with it, so nothing follows it but empty suffixes and
  -- chains.
  have unchained : ∀ {room n : Nat} {x : Expr σ}, Reads scope room (.chained n x x) [] next := by
    refine .unchained fun op is => ?_
    rw [rests.2] at is
    cases is
  induction arrives with
  | afterGroup opens inside closes _ ih =>
    obtain ⟨_,same,reads⟩ := ih outermost
    cases same
    exact ⟨_,rfl,.group opens inside closes reads⟩
  | bracket is provided inside here =>
    subst here
    exact ⟨_,rfl,.bracket is provided inside found⟩
  | name _ ih =>
    obtain ⟨_,same,reads⟩ := ih outermost
    cases same
    exact ⟨_,rfl,.name reads⟩
  | indexed is opens walked provided inside here =>
    subst here
    exact ⟨_,rfl,.indexed is opens walked provided inside found⟩
  | called is opens resolved inside here =>
    subst here
    exact ⟨_,rfl,.called is opens resolved inside found⟩
  | @inSuffix _ room dot tokens x is _ ih =>
    obtain ⟨_,same,reads⟩ := ih outermost
    cases same
    have whole : Reads scope room (.suffixed x e) (dot :: tokens ++ []) next :=
      .suffix is reads (.unsuffixed rests.1)
    exact ⟨_,rfl,by rwa [List.append_nil] at whole⟩
  | afterSuffix is named _ ih =>
    obtain ⟨_,same,reads⟩ := ih outermost
    cases same
    exact ⟨_,rfl,.suffix is named reads⟩
  | @inPrimary _ room tokens _ ih =>
    obtain ⟨_,same,reads⟩ := ih outermost
    cases same
    have whole : Reads scope room (.layered 0 e) (tokens ++ []) next :=
      .operand reads (.unsuffixed rests.1)
    exact ⟨_,rfl,by rwa [List.append_nil] at whole⟩
  | afterPrimary first _ ih =>
    obtain ⟨_,same,reads⟩ := ih outermost
    cases same
    exact ⟨_,rfl,.operand first reads⟩
  | @inLeft _ room n tokens _ ih =>
    obtain ⟨_,same,reads⟩ := ih outermost
    cases same
    have whole : Reads scope room (.layered (n + 1) e) (tokens ++ []) next := .layer reads unchained
    exact ⟨_,rfl,by rwa [List.append_nil] at whole⟩
  | inGroup | inUnary | inBracket | inIndexed | inCalled | arguments | inFirst | inRest | inChain | inRight
    | afterRight => cases outermost

end TypedFormula
