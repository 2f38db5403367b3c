import TypedFormula.Proofs.Lookups

namespace TypedFormula

def TokenKind.unaryOp? : TokenKind → Option UnaryOp
  | .minus => some .negate
  | .not => some .not
  | _ => none

-- What can be read: the tree of an operand, of the suffixes behind one, of a name, of an expression up
-- to a layer of operators, or of a chain of operators behind one; and the trees of arguments.
inductive Part (σ : Type) where
  | primary (e : Expr σ)
  | suffixed (first e : Expr σ)
  | named (target : Option (Expr σ)) (e : Expr σ)
  | layered (n : Nat) (e : Expr σ)
  | chained (n : Nat) (left e : Expr σ)
  | separated (close : TokenKind) (es : List (Expr σ))
  | arguments (close : TokenKind) (es : List (Expr σ)) (closing : Span)

-- The token in sight in front of some tokens, with `next` behind them.
def ahead (tokens : List Token) (next : Token) : Token := tokens.headD next

@[simp] theorem ahead_nil (next : Token) : ahead [] next = next := rfl

@[simp] theorem ahead_cons (token : Token) (tokens : List Token) (next : Token) :
    ahead (token :: tokens) next = token := rfl

variable {σ : Type}

-- The grammar and the binding of names at once: a part is read from the tokens that make it up, with the token
-- behind them in sight, when so many nesting levels are left.
inductive Reads (scope : Scope σ) : Nat → Part σ → List Token → Token → Prop where
  | literal {room token value next} (is : token.kind.literal? = some value) :
      Reads scope room (.primary (.literal value token.span)) [token] next
  -- Suffixes behind a group belong to it.
  | group {room opening tokens e closing more whole next} (opens : opening.kind = .leftParen)
      (inside : Reads scope room (.layered BinaryOp.layers e) tokens closing)
      (closes : closing.kind = .rightParen)
      (suffixes : Reads scope (room + 1)
        (.suffixed (e.withSpan (opening.span.union closing.span)) whole) more next) :
      Reads scope (room + 1) (.primary whole) (opening :: tokens ++ closing :: more) next
  | unary {room token op tokens operand e next} (is : token.kind.unaryOp? = some op)
      (inside : Reads scope room (.primary operand) tokens next)
      (typed : bindUnary? op token.span operand = some e) :
      Reads scope (room + 1) (.primary e) (token :: tokens) next
  | bracket {room token receiver info args closing tokens e next} (is : token.kind = .leftBracket)
      (provided : scope.indexed? none = some (receiver,info))
      (inside : Reads scope room (.arguments .rightBracket args closing) (token :: tokens) next)
      (found : Scope.index? receiver info args token.span closing = some e) :
      Reads scope room (.primary e) (token :: tokens) next
  | name {room tokens e next} (named : Reads scope room (.named none e) tokens next) :
      Reads scope room (.primary e) tokens next
  | member {room token spelling target e next} (is : token.kind = .name spelling)
      (noCall : next.kind ≠ .leftParen) (noIndex : next.kind ≠ .leftBracket)
      (found : scope.members? (.ofText spelling token.span.start) target = some e) :
      Reads scope room (.named target e) [token] next
  | indexed {room token spelling target x receiver info opening tokens args closing e next}
      (is : token.kind = .name spelling) (opens : opening.kind = .leftBracket)
      (walked : scope.members? (.ofText spelling token.span.start) target = some x)
      (provided : scope.indexed? (some x) = some (receiver,info))
      (inside : Reads scope room (.arguments .rightBracket args closing) (opening :: tokens) next)
      (found : Scope.index? receiver info args token.span closing = some e) :
      Reads scope room (.named target e) (token :: opening :: tokens) next
  | called {room token spelling target callee opening tokens args closing e next}
      (is : token.kind = .name spelling) (opens : opening.kind = .leftParen)
      (resolved : scope.callee? (.ofText spelling token.span.start) target = some callee)
      (inside : Reads scope room (.arguments .rightParen args closing) (opening :: tokens) next)
      (found : Scope.call? callee args token.span closing = some e) :
      Reads scope room (.named target e) (token :: opening :: tokens) next
  | noArguments {room opening closing close next} (closes : closing.kind = close) :
      Reads scope room (.arguments close [] closing.span) [opening,closing] next
  | someArguments {room opening tokens es closing close next}
      (inside : Reads scope room (.separated close es) tokens closing)
      (closes : closing.kind = close) :
      Reads scope room (.arguments close es closing.span) (opening :: tokens ++ [closing]) next
  | last {room tokens e close next} (inside : Reads scope room (.layered BinaryOp.layers e) tokens next)
      (closes : next.kind = close) (closed : close ≠ .comma) :
      Reads scope (room + 1) (.separated close [e]) tokens next
  | more {room tokens e es comma others close next}
      (inside : Reads scope room (.layered BinaryOp.layers e) tokens comma)
      (is : comma.kind = .comma)
      (rest : Reads scope (room + 1) (.separated close es) others next) :
      Reads scope (room + 1) (.separated close (e :: es)) (tokens ++ comma :: others) next
  | unsuffixed {room e next} (stops : next.kind ≠ .dot) :
      Reads scope room (.suffixed e e) [] next
  | suffix {room dot tokens x y others e next} (is : dot.kind = .dot)
      (named : Reads scope room (.named (some x) y) tokens (ahead others next))
      (rest : Reads scope room (.suffixed y e) others next) :
      Reads scope room (.suffixed x e) (dot :: tokens ++ others) next
  | operand {room tokens x others e next}
      (first : Reads scope room (.primary x) tokens (ahead others next))
      (suffixes : Reads scope room (.suffixed x e) others next) :
      Reads scope room (.layered 0 e) (tokens ++ others) next
  | layer {room n tokens x others e next}
      (left : Reads scope room (.layered n x) tokens (ahead others next))
      (chain : Reads scope room (.chained (n + 1) x e) others next) :
      Reads scope room (.layered (n + 1) e) (tokens ++ others) next
  | unchained {room n e next} (stops : ∀ op, next.kind.binaryOp? = some op → op.layer ≠ n) :
      Reads scope room (.chained n e e) [] next
  | link {room n token op tokens x y z others e next} (is : token.kind.binaryOp? = some op)
      (fits : op.layer = n + 1)
      (right : Reads scope room (.layered n y) tokens (ahead others next))
      (typed : bindBinary? op x y = some z)
      (rest : Reads scope room (.chained (n + 1) z e) others next) :
      Reads scope room (.chained (n + 1) x e) (token :: tokens ++ others) next

-- A property of trees holds of the trees of a part if it holds of the trees in front of it.
def Part.Keeps (p : Expr σ → Prop) : Part σ → Prop
  | .primary e => p e
  | .suffixed x e => p x → p e
  | .named target e => (∀ x, target = some x → p x) → p e
  | .layered _ e => p e
  | .chained _ x e => p x → p e
  | .separated _ es => ∀ e ∈ es, p e
  | .arguments _ es _ => ∀ e ∈ es, p e

def TokenKind.startsOperand (kind : TokenKind) : Bool :=
  kind.literal?.isSome || kind.unaryOp?.isSome ||
    match kind with
    | .leftParen | .leftBracket | .name _ => true
    | _ => false

def Part.startsWith : Part σ → Token → Prop
  | .primary _, token => token.kind.startsOperand = true
  | .named _ _, token => ∃ spelling, token.kind = .name spelling
  | .layered _ _, token => token.kind.startsOperand = true
  | .separated _ _, token => token.kind.startsOperand = true
  | _, _ => True

def Part.canBeEmpty : Part σ → Bool
  | .suffixed _ _ => true
  | .chained _ _ _ => true
  | _ => false

theorem Reads.starts {scope : Scope σ} {room : Nat} {part : Part σ} {tokens : List Token} {next : Token}
    (reads : Reads scope room part tokens next) (filled : part.canBeEmpty = false) :
    ∃ first rest, tokens = first :: rest ∧ part.startsWith first := by
  induction reads with
  | literal is => exact ⟨_,_,rfl,by simp [Part.startsWith,TokenKind.startsOperand,is]⟩
  | group opens => exact ⟨_,_,rfl,by simp [Part.startsWith,TokenKind.startsOperand,opens]⟩
  | unary is => exact ⟨_,_,rfl,by simp [Part.startsWith,TokenKind.startsOperand,is]⟩
  | bracket is => exact ⟨_,_,rfl,by simp [Part.startsWith,TokenKind.startsOperand,is]⟩
  | name named ih =>
    obtain ⟨first,rest,split,spelling,is⟩ := ih rfl
    exact ⟨first,rest,split,by simp [Part.startsWith,TokenKind.startsOperand,is]⟩
  | member is | indexed is | called is => exact ⟨_,_,rfl,_,is⟩
  | noArguments | someArguments => exact ⟨_,_,rfl,trivial⟩
  | last inside closes closed ih => exact ih rfl
  | more inside is rest ih _ =>
    obtain ⟨first,others,rfl,starts⟩ := ih rfl
    exact ⟨first,_,rfl,starts⟩
  | operand first suffixes ih _ =>
    obtain ⟨token,others,rfl,starts⟩ := ih rfl
    exact ⟨token,_,rfl,starts⟩
  | layer left chain ih _ =>
    obtain ⟨token,others,rfl,starts⟩ := ih rfl
    exact ⟨token,_,rfl,starts⟩
  | unsuffixed | suffix | unchained | link => cases filled

theorem Reads.mono {scope : Scope σ} {room wider : Nat} {part : Part σ} {tokens : List Token} {next : Token}
    (reads : Reads scope room part tokens next) (le : room ≤ wider) : Reads scope wider part tokens next := by
  have split : ∀ {n w : Nat}, n + 1 ≤ w → ∃ m, w = m + 1 ∧ n ≤ m := by
    intro n w le
    exact ⟨w - 1,by omega,by omega⟩
  induction reads generalizing wider with
  | literal is => exact .literal is
  | group opens _ closes _ inside suffixes =>
    obtain ⟨room,rfl,less⟩ := split le
    exact .group opens (inside less) closes (suffixes le)
  | unary is _ typed inside =>
    obtain ⟨room,rfl,less⟩ := split le
    exact .unary is (inside less) typed
  | bracket is provided _ found inside => exact .bracket is provided (inside le) found
  | name _ named => exact .name (named le)
  | member is noCall noIndex found => exact .member is noCall noIndex found
  | indexed is opens walked provided _ found inside => exact .indexed is opens walked provided (inside le) found
  | called is opens resolved _ found inside => exact .called is opens resolved (inside le) found
  | noArguments closes => exact .noArguments closes
  | someArguments _ closes inside => exact .someArguments (inside le) closes
  | last _ closes closed inside =>
    obtain ⟨room,rfl,less⟩ := split le
    exact .last (inside less) closes closed
  | more _ is _ inside rest =>
    obtain ⟨room,rfl,less⟩ := split le
    exact .more (inside less) is (rest le)
  | unsuffixed stops => exact .unsuffixed stops
  | suffix is _ _ named rest => exact .suffix is (named le) (rest le)
  | operand _ _ first suffixes => exact .operand (first le) (suffixes le)
  | layer _ _ left chain => exact .layer (left le) (chain le)
  | unchained stops => exact .unchained stops
  | link is fits _ typed _ right rest => exact .link is fits (right le) typed (rest le)

end TypedFormula
