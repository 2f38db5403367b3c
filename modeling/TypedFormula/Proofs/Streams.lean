import TypedFormula.Proofs.Readings

namespace TypedFormula

variable {σ : Type}

-- A part can be read from the front of a stream, with what is left behind it.
def Takes (scope : Scope σ) (part : Part σ) (stream behind : List Token) : Prop :=
  ∃ room tokens next rest, stream = tokens ++ behind ∧ behind = next :: rest ∧
    Reads scope room part tokens next

-- What an operand is that starts with a given token.
inductive Begins (scope : Scope σ) (e : Expr σ) (token : Token) (stream behind : List Token) : Prop where
  | literal {value} (is : token.kind.literal? = some value) (same : e = .literal value token.span)
      (rest : behind = stream)
  | group {inner closing more} (opens : token.kind = .leftParen) (closes : closing.kind = .rightParen)
      (inside : Takes scope (.layered BinaryOp.layers inner) stream (closing :: more))
      (suffixes : Takes scope (.suffixed (inner.withSpan (token.span.union closing.span)) e) more behind)
  | unary {op operand} (is : token.kind.unaryOp? = some op)
      (inside : Takes scope (.primary operand) stream behind)
      (typed : bindUnary? op token.span operand = some e)
  | bracket {receiver info args closing} (is : token.kind = .leftBracket)
      (provided : scope.indexed? none = some (receiver,info))
      (inside : Takes scope (.arguments .rightBracket args closing) (token :: stream) behind)
      (found : Scope.index? receiver info args token.span closing = some e)
  | name {spelling} (is : token.kind = .name spelling)
      (named : Takes scope (.named none e) (token :: stream) behind)

inductive Continues (scope : Scope σ) (target : Option (Expr σ)) (e : Expr σ) (token : Token)
    (stream behind : List Token) : Prop where
  | member {spelling next rest} (is : token.kind = .name spelling) (noCall : next.kind ≠ .leftParen)
      (noIndex : next.kind ≠ .leftBracket) (found : scope.members? (.ofText spelling token.span.start) target = some e)
      (all : stream = behind) (left : behind = next :: rest)
  | indexed {spelling x receiver info opening tokens args closing} (is : token.kind = .name spelling)
      (starts : stream = opening :: tokens) (opens : opening.kind = .leftBracket)
      (walked : scope.members? (.ofText spelling token.span.start) target = some x)
      (provided : scope.indexed? (some x) = some (receiver,info))
      (inside : Takes scope (.arguments .rightBracket args closing) stream behind)
      (found : Scope.index? receiver info args token.span closing = some e)
  | called {spelling callee opening tokens args closing} (is : token.kind = .name spelling)
      (starts : stream = opening :: tokens) (opens : opening.kind = .leftParen)
      (resolved : scope.callee? (.ofText spelling token.span.start) target = some callee)
      (inside : Takes scope (.arguments .rightParen args closing) stream behind)
      (found : Scope.call? callee args token.span closing = some e)

variable {scope : Scope σ} {stream behind : List Token}

theorem Takes.of {room : Nat} {part : Part σ} {tokens rest : List Token} {next : Token}
    (reads : Reads scope room part tokens next) : Takes scope part (tokens ++ next :: rest) (next :: rest) :=
  ⟨room,tokens,next,rest,rfl,rfl,reads⟩

theorem Takes.ofAhead {room : Nat} {part : Part σ} {tokens others rest : List Token} {next : Token}
    (reads : Reads scope room part tokens (ahead others next)) :
    Takes scope part (tokens ++ (others ++ next :: rest)) (others ++ next :: rest) := by
  cases others with
  | nil => exact .of reads
  | cons token others => exact .of reads

theorem Takes.begins {e : Expr σ} {token : Token} (takes : Takes scope (.primary e) (token :: stream) behind) :
    Begins scope e token stream behind := by
  obtain ⟨room,tokens,next,rest,split,rfl,reads⟩ := takes
  cases reads with
  | literal is =>
    obtain ⟨rfl,rfl⟩ := List.cons.inj split
    exact .literal is rfl rfl
  | group opens inside closes suffixes =>
    rw [List.append_assoc,List.cons_append] at split
    obtain ⟨rfl,rfl⟩ := List.cons.inj split
    exact .group opens closes (.of inside) (.of suffixes)
  | unary is inside typed =>
    obtain ⟨rfl,rfl⟩ := List.cons.inj split
    exact .unary is (.of inside) typed
  | bracket is provided inside found =>
    obtain ⟨rfl,rfl⟩ := List.cons.inj split
    exact .bracket is provided (.of inside) found
  | name named =>
    obtain ⟨first,others,rfl,spelling,is⟩ := named.starts rfl
    obtain ⟨rfl,rfl⟩ := List.cons.inj split
    exact .name is (.of named)

theorem Takes.continues {target : Option (Expr σ)} {e : Expr σ} {token : Token}
    (takes : Takes scope (.named target e) (token :: stream) behind) :
    Continues scope target e token stream behind := by
  obtain ⟨room,tokens,next,rest,split,rfl,reads⟩ := takes
  cases reads with
  | member is noCall noIndex found =>
    obtain ⟨rfl,rfl⟩ := List.cons.inj split
    exact .member is noCall noIndex found rfl rfl
  | indexed is opens walked provided inside found =>
    obtain ⟨rfl,rfl⟩ := List.cons.inj split
    exact .indexed is rfl opens walked provided (.of inside) found
  | called is opens resolved inside found =>
    obtain ⟨rfl,rfl⟩ := List.cons.inj split
    exact .called is rfl opens resolved (.of inside) found

theorem Reads.suffixed_ends {room : Nat} {x e : Expr σ} {tokens : List Token} {next : Token}
    (reads : Reads scope room (.suffixed x e) tokens next) : next.kind ≠ .dot := by
  generalize same : Part.suffixed x e = part at reads
  induction reads generalizing x e with
  | unsuffixed stops => exact stops
  | suffix _ _ _ _ rest => exact rest rfl
  | _ => cases same

theorem Takes.suffixed_nil {x e : Expr σ} {token : Token} (noDot : token.kind ≠ .dot)
    (takes : Takes scope (.suffixed x e) (token :: stream) behind) : x = e ∧ behind = token :: stream := by
  obtain ⟨room,tokens,next,rest,split,rfl,reads⟩ := takes
  cases reads with
  | unsuffixed => exact ⟨rfl,split.symm⟩
  | suffix is =>
    obtain ⟨rfl,_⟩ := List.cons.inj split
    exact absurd is noDot

theorem Takes.suffixed_dot {x e : Expr σ} {dot : Token} (isDot : dot.kind = .dot)
    (takes : Takes scope (.suffixed x e) (dot :: stream) behind) :
    ∃ y middle, Takes scope (.named (some x) y) stream middle ∧ Takes scope (.suffixed y e) middle behind := by
  obtain ⟨room,tokens,next,rest,split,rfl,reads⟩ := takes
  cases reads with
  | unsuffixed stops =>
    obtain ⟨rfl,_⟩ := List.cons.inj split
    exact absurd isDot stops
  | suffix is named others =>
    rw [List.append_assoc] at split
    obtain ⟨rfl,rfl⟩ := List.cons.inj split
    exact ⟨_,_,.ofAhead named,.of others⟩

theorem Takes.suffixed_done {x y e : Expr σ} {middle : List Token}
    (before : Takes scope (.suffixed x y) stream middle) {z : Expr σ}
    (takes : Takes scope (.suffixed z e) middle behind) : z = e ∧ behind = middle := by
  obtain ⟨_,_,next,rest,_,rfl,reads⟩ := before
  exact takes.suffixed_nil reads.suffixed_ends

theorem Takes.operand {e : Expr σ} (takes : Takes scope (.layered 0 e) stream behind) :
    ∃ x middle, Takes scope (.primary x) stream middle ∧ Takes scope (.suffixed x e) middle behind := by
  obtain ⟨room,tokens,next,rest,rfl,rfl,reads⟩ := takes
  cases reads with
  | operand first suffixes =>
    rw [List.append_assoc]
    exact ⟨_,_,.ofAhead first,.of suffixes⟩

theorem Takes.layer {n : Nat} {e : Expr σ} (takes : Takes scope (.layered (n + 1) e) stream behind) :
    ∃ x middle, Takes scope (.layered n x) stream middle ∧ Takes scope (.chained (n + 1) x e) middle behind := by
  obtain ⟨room,tokens,next,rest,rfl,rfl,reads⟩ := takes
  cases reads with
  | layer left chain =>
    rw [List.append_assoc]
    exact ⟨_,_,.ofAhead left,.of chain⟩

theorem Takes.chained_nil {n : Nat} {x e : Expr σ} {token : Token}
    (other : ∀ op, token.kind.binaryOp? = some op → op.layer ≠ n)
    (takes : Takes scope (.chained n x e) (token :: stream) behind) : x = e ∧ behind = token :: stream := by
  obtain ⟨room,tokens,next,rest,split,rfl,reads⟩ := takes
  cases reads with
  | unchained => exact ⟨rfl,split.symm⟩
  | link is fits =>
    obtain ⟨rfl,_⟩ := List.cons.inj split
    exact absurd fits (other _ is)

theorem Takes.chained_link {n : Nat} {x e : Expr σ} {token : Token} {op : BinaryOp}
    (is : token.kind.binaryOp? = some op) (fits : op.layer = n + 1)
    (takes : Takes scope (.chained (n + 1) x e) (token :: stream) behind) :
    ∃ y z middle, Takes scope (.layered n y) stream middle ∧ bindBinary? op x y = some z ∧
      Takes scope (.chained (n + 1) z e) middle behind := by
  obtain ⟨room,tokens,next,rest,split,rfl,reads⟩ := takes
  cases reads with
  | unchained stops =>
    obtain ⟨rfl,_⟩ := List.cons.inj split
    exact absurd fits (stops _ is)
  | link isOp _ right typed others =>
    rw [List.append_assoc] at split
    obtain ⟨rfl,rfl⟩ := List.cons.inj split
    cases is.symm.trans isOp
    exact ⟨_,_,_,.ofAhead right,typed,.of others⟩

theorem Takes.arguments {close : TokenKind} {es : List (Expr σ)} {closing : Span} {opening : Token}
    (takes : Takes scope (.arguments close es closing) (opening :: stream) behind) :
    (es = [] ∧ ∃ token, stream = token :: behind ∧ token.kind = close) ∨
    ∃ token, token.kind = close ∧ Takes scope (.separated close es) stream (token :: behind) := by
  obtain ⟨room,tokens,next,rest,split,rfl,reads⟩ := takes
  cases reads with
  | noArguments closes =>
    obtain ⟨_,rfl⟩ := List.cons.inj split
    exact .inl ⟨rfl,_,rfl,closes⟩
  | someArguments inside closes =>
    rw [List.append_assoc] at split
    obtain ⟨_,rfl⟩ := List.cons.inj split
    exact .inr ⟨_,closes,.of inside⟩

theorem Takes.separated {close : TokenKind} {es : List (Expr σ)}
    (takes : Takes scope (.separated close es) stream behind) :
    ∃ e others token middle, es = e :: others ∧ Takes scope (.layered BinaryOp.layers e) stream (token :: middle) ∧
      ((token.kind = close ∧ close ≠ .comma ∧ others = [] ∧ behind = token :: middle) ∨
        token.kind = .comma ∧ Takes scope (.separated close others) middle behind) := by
  obtain ⟨room,tokens,next,rest,rfl,rfl,reads⟩ := takes
  cases reads with
  | last inside closes closed => exact ⟨_,[],next,rest,rfl,.of inside,.inl ⟨closes,closed,rfl,rfl⟩⟩
  | more inside is others =>
    rw [List.append_assoc]
    exact ⟨_,_,_,_,rfl,.of inside,.inr ⟨is,.of others⟩⟩

end TypedFormula
