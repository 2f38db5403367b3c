import TypedFormula.Proofs.TokenRuns

namespace TypedFormula

variable {σ : Type}

namespace Parser

variable {scope : Scope σ} {limits : Limits} {room : Nat}

def Performs (scope : Scope σ) (limits : Limits) (room : Nat) (tokens : List Token) (next : Token) :
    Part σ → Prop
  | .primary e => Yields (primary scope limits (innerOf scope limits room)) tokens next e
  | .suffixed x e => ∀ steps, tokens.length ≤ steps →
      Yields (suffixes scope limits (innerOf scope limits room) steps x) tokens next e
  | .named target e => ∀ token others spelling, tokens = token :: others → token.kind = .name spelling →
      Yields (named scope limits (innerOf scope limits room) spelling token.span target) tokens next e
  | .layered n e =>
      Yields (layered (operand scope limits (innerOf scope limits room)) n) tokens next e
  | .chained n x e => ∀ m steps, n = m + 1 → tokens.length ≤ steps →
      Yields (chain (layered (operand scope limits (innerOf scope limits room)) m) n steps x)
        tokens next e
  | .separated close es => ∀ opening steps, close.startsOperand = false → tokens.length < steps →
      Yields (separated (do (← nested limits (innerOf scope limits room) opening) .expression)
        close steps) tokens next es
  | .arguments close es closing => close.startsOperand = false →
      Yields (arguments limits (innerOf scope limits room) close) tokens next (es,closing)

theorem withSuffixes_performs {tokens : List Token} {next : Token} {x e : Expr σ}
    (suffixes : Performs scope limits room tokens next (.suffixed x e)) :
    Yields (withSuffixes scope limits (innerOf scope limits room) x) tokens next e :=
  .tokensLeft_bind suffixes

theorem within_performs {tokens : List Token} {next : Token} {e : Expr σ}
    (inside : Performs scope limits room tokens next (.layered BinaryOp.layers e)) :
    Yields (within scope limits room .expression) tokens next e := by
  intro s rest ends stream
  rw [within_expression ends]
  exact inside s rest ends stream

theorem argument_performs {tokens : List Token} {next : Token} {e : Expr σ} {opening : Span}
    (inside : Performs scope limits room tokens next (.layered BinaryOp.layers e)) :
    Yields (do (← nested limits (innerOf scope limits (room + 1)) opening) .expression)
      tokens next e :=
  .bind (.pure _ _) (within_performs inside)

theorem noArguments_performs {opening closing next : Token} {close : TokenKind}
    (closes : closing.kind = close) :
    Performs scope limits room [opening,closing] next (.arguments close [] closing.span) := by
  intro _
  refine .current_bind (.bump_bind (.current_bind ?_))
  rw [if_pos (show (ahead [closing] next).kind = close from closes)]
  refine .bind (.pure [] _) (.current_bind (.bump_bind ?_))
  exact .pure _ _

theorem someArguments_performs {opening closing next : Token} {close : TokenKind}
    {tokens : List Token} {es : List (Expr σ)} (starts : ∃ first rest, tokens = first :: rest ∧
      first.kind.startsOperand = true)
    (inside : Performs scope limits room tokens closing (.separated close es)) :
    Performs scope limits room (opening :: tokens ++ [closing]) next
      (.arguments close es closing.span) := by
  intro closed
  obtain ⟨first,rest,rfl,isOperand⟩ := starts
  have differs : first.kind ≠ close := by
    rintro rfl
    rw [closed] at isOperand
    cases isOperand
  rw [List.cons_append,List.cons_append]
  refine runs_arguments differs fun steps enough => ?_
  rw [← List.cons_append] at enough ⊢
  rw [List.length_append] at enough
  refine .bind (inside _ _ closed (by omega)) ?_
  exact .current_bind (.bump_bind (.pure _ _))

theorem unary_performs {token next : Token} {op : UnaryOp} {tokens : List Token} {operand e : Expr σ}
    (is : token.kind.unaryOp? = some op)
    (inside : Performs scope limits room tokens next (.primary operand))
    (typed : bindUnary? op token.span operand = some e) :
    Performs scope limits (room + 1) (token :: tokens) next (.primary e) := by
  have whole : Yields (within scope limits room .primary) tokens next operand := by
    rw [within_eq]; exact inside
  exact runs_unary is (.bind_last whole (.binding (bindUnary_agrees op token.span operand) typed next))

theorem indexer_performs {target : Option (Expr σ)} {receiver : Receiver (Expr σ)} {info : TypeInfo σ}
    {opening next : Token} {tokens : List Token} {args : List (Expr σ)} {span closing : Span}
    {e : Expr σ} (provided : scope.indexed? target = some (receiver,info))
    (inside : Performs scope limits room (opening :: tokens) next
      (.arguments .rightBracket args closing))
    (found : Scope.index? receiver info args span closing = some e) :
    Yields (indexer scope limits (innerOf scope limits room) target span)
      (opening :: tokens) next e :=
  runs_indexer provided (.bind_last (inside rfl)
    (.binding (Scope.index_agrees receiver info args span opening.span closing) found next))

theorem call_performs {name : DottedName} {target : Option (Expr σ)} {callee : Scope.Callee σ}
    {next : Token} {tokens : List Token} {args : List (Expr σ)} {span closing : Span} {e : Expr σ}
    (resolved : scope.callee? name target = some callee)
    (inside : Performs scope limits room tokens next (.arguments .rightParen args closing))
    (found : Scope.call? callee args span closing = some e) :
    Yields (call scope limits (innerOf scope limits room) name span target) tokens next e :=
  runs_call resolved (.bind_last (inside rfl) (.binding (Scope.call_agrees callee args span closing) found next))

theorem performs {part : Part σ} {tokens : List Token} {next : Token}
    (reads : Reads scope room part tokens next) : Performs scope limits room tokens next part := by
  induction reads with
  | literal is =>
    change Yields _ _ _ _
    refine .current_bind ?_
    simp only [ahead_cons,is]
    exact .bump_bind (.pure _ _)
  | group opens _ closes _ inside suffixes =>
    exact runs_group opens (.bind (within_performs inside)
      (.bind (.expect closes _) (withSuffixes_performs suffixes)))
  | unary is _ typed inside => exact unary_performs is inside typed
  | bracket is provided _ found inside => exact runs_bracket is provided (indexer_performs provided inside found)
  | name named ih =>
    obtain ⟨first,rest,rfl,spelling,is⟩ := named.starts rfl
    exact runs_name is (ih _ _ _ rfl is)
  | member is noCall noIndex found =>
    rintro _ _ spelling same kind
    cases same
    cases is.symm.trans kind
    refine .bump_bind (.current_bind ?_)
    simp only [ahead_nil]
    exact .binding (scope.members_agrees _ _) found _
  | indexed is opens walked provided _ found inside =>
    rintro _ _ spelling same kind
    cases same
    cases is.symm.trans kind
    exact runs_indexed opens walked (indexer_performs provided inside found)
  | called is opens resolved _ found inside =>
    rintro _ _ spelling same kind
    cases same
    cases is.symm.trans kind
    exact runs_called opens (call_performs resolved inside found)
  | noArguments closes => exact noArguments_performs closes
  | someArguments inside closes ih => exact someArguments_performs (inside.starts rfl) ih
  | @last room tokens e close next inside closes closed ih =>
    intro opening steps _ enough
    obtain ⟨steps,rfl⟩ := Nat.exists_eq_add_one_of_ne_zero (Nat.ne_zero_of_lt enough)
    refine .bind_last (argument_performs ih) (.current_bind ?_)
    -- What closes arguments is no comma, so no further argument is tried.
    have noComma : (ahead [] next).kind ≠ .comma := by
      rw [ahead_nil,closes]
      exact closed
    rw [if_neg noComma,if_pos (show (ahead [] next).kind = close from closes)]
    exact .pure _ _
  | more inside is rest ih ihRest =>
    intro opening steps operandless enough
    obtain ⟨steps,rfl⟩ := Nat.exists_eq_add_one_of_ne_zero (Nat.ne_zero_of_lt enough)
    rw [List.length_append,List.length_cons] at enough
    exact runs_more (argument_performs ih) is (.bind_last (ihRest _ _ operandless (by omega)) (.pure _ _))
  | unsuffixed stops =>
    intro steps _
    exact .stop fun s is => suffixes_stop (by rw [is]; exact stops)
  | suffix is named rest ihNamed ihRest =>
    intro steps enough
    obtain ⟨first,behind,rfl,spelling,kind⟩ := named.starts rfl
    simp only [List.length_append,List.length_cons] at enough
    obtain ⟨steps,rfl⟩ := Nat.exists_eq_add_one_of_ne_zero (show steps ≠ 0 by omega)
    exact runs_suffix is kind (.bind (ihNamed _ _ _ rfl kind) (ihRest _ (by omega)))
  | operand _ _ first suffixes => exact .bind first (withSuffixes_performs suffixes)
  | layer _ _ left chain =>
    change Yields (layered _ (_ + 1)) _ _ _
    exact .bind left (.tokensLeft_bind fun steps enough => chain _ _ rfl enough)
  | unchained stops =>
    rintro m steps rfl _
    exact .stop fun s is => chain_stop (by rw [is]; exact stops)
  | link is fits _ typed _ right rest =>
    intro m steps same enough
    cases same
    simp only [List.length_append,List.length_cons] at enough
    obtain ⟨steps,rfl⟩ := Nat.exists_eq_add_one_of_ne_zero (show steps ≠ 0 by omega)
    exact runs_link is fits (.bind right
      (.binding_bind (bindBinary_agrees _ _ _ _) typed (rest _ _ rfl (by omega))))

end Parser
end TypedFormula
