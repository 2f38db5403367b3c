import TypedFormula.Proofs.Arrivals
import TypedFormula.Proofs.RunsOfReadings

namespace TypedFormula

variable {σ : Type}

theorem Runs.site {site : Site σ} (unanswered : site.Unanswered) (next : Token) :
    Fails (Parse.bind site.bind) [] next site.fault := by
  intro s rest _ _
  unfold Parse.bind
  rw [Site.bind_unanswered unanswered]
  exact ⟨_,rfl⟩

namespace Parser

variable {scope : Scope σ} {limits : Limits} {room : Nat}

def Halts (scope : Scope σ) (limits : Limits) (room : Nat) (tokens : List Token) (next : Token)
    (fault : Fault) : Aim σ → Prop
  | .primary => Fails (primary scope limits (innerOf scope limits room)) tokens next fault
  | .suffixed x => ∀ steps, tokens.length ≤ steps →
      Fails (suffixes scope limits (innerOf scope limits room) steps x) tokens next fault
  | .named target => ∀ token others spelling, tokens = token :: others → token.kind = .name spelling →
      Fails (named scope limits (innerOf scope limits room) spelling token.span target) tokens next fault
  | .layered n =>
      Fails (layered (operand scope limits (innerOf scope limits room)) n) tokens next fault
  | .chained n x => ∀ m steps, n = m + 1 → tokens.length ≤ steps →
      Fails (chain (layered (operand scope limits (innerOf scope limits room)) m) n steps x) tokens next fault
  | .separated close => ∀ opening steps, close.startsOperand = false → tokens.length < steps →
      Fails (separated (do (← nested limits (innerOf scope limits room) opening) .expression) close steps)
        tokens next fault
  | .arguments close => close.startsOperand = false →
      Fails (arguments limits (innerOf scope limits room) close) tokens next fault

theorem withSuffixes_halts {tokens : List Token} {next : Token} {fault : Fault} {x : Expr σ}
    (halts : Halts scope limits room tokens next fault (.suffixed x)) :
    Fails (withSuffixes scope limits (innerOf scope limits room) x) tokens next fault :=
  .tokensLeft_bind halts

theorem within_halts {tokens : List Token} {next : Token} {fault : Fault}
    (halts : Halts scope limits room tokens next fault (.layered BinaryOp.layers)) :
    Fails (within scope limits room .expression) tokens next fault := by
  intro s rest ends stream
  rw [within_expression ends]
  exact halts s rest ends stream

theorem inner_halts {tokens : List Token} {next : Token} {fault : Fault} {opening : Span}
    (halts : Halts scope limits room tokens next fault (.layered BinaryOp.layers)) :
    Fails (do (← nested limits (innerOf scope limits (room + 1)) opening) .expression) tokens next fault :=
  .bind (.pure _ _) (within_halts halts)

theorem unary_halts {token : Token} {op : UnaryOp} {tokens : List Token} {next : Token} {fault : Fault}
    (is : token.kind.unaryOp? = some op) (halts : Halts scope limits room tokens next fault .primary) :
    Halts scope limits (room + 1) (token :: tokens) next fault .primary := by
  have whole : Fails (within scope limits room .primary) tokens next fault := by
    rw [within_eq]; exact halts
  exact runs_unary is (.first whole)

theorem indexer_halts {target : Option (Expr σ)} {receiver : Receiver (Expr σ)} {info : TypeInfo σ}
    {opening next : Token} {tokens : List Token} {span : Span} {fault : Fault}
    (provided : scope.indexed? target = some (receiver,info))
    (halts : Halts scope limits room (opening :: tokens) next fault (.arguments .rightBracket)) :
    Fails (indexer scope limits (innerOf scope limits room) target span) (opening :: tokens) next fault :=
  runs_indexer provided (.first (halts rfl))

theorem index_halts {target : Option (Expr σ)} {receiver : Receiver (Expr σ)} {info : TypeInfo σ}
    {opening next : Token} {tokens : List Token} {args : List (Expr σ)} {span closing : Span}
    (provided : scope.indexed? target = some (receiver,info))
    (inside : Reads scope room (.arguments .rightBracket args closing) (opening :: tokens) next)
    (unanswered : (Site.index receiver info args span opening.span closing).Unanswered) :
    Fails (indexer scope limits (innerOf scope limits room) target span) (opening :: tokens) next
      (Site.index receiver info args span opening.span closing).fault :=
  runs_indexer provided (.bind_last (performs inside rfl) (.site unanswered next))

theorem call_halts {name : DottedName} {target : Option (Expr σ)} {callee : Scope.Callee σ}
    {tokens : List Token} {next : Token} {args : List (Expr σ)} {span closing : Span}
    (resolved : scope.callee? name target = some callee)
    (inside : Reads scope room (.arguments .rightParen args closing) tokens next)
    (unanswered : (Site.call callee args span closing).Unanswered) :
    Fails (call scope limits (innerOf scope limits room) name span target) tokens next
      (Site.call callee args span closing).fault :=
  runs_call resolved (.bind_last (performs inside rfl) (.site unanswered next))

theorem halts {site : Site σ} {outer : Bool} {aim : Aim σ} {tokens : List Token} {next : Token}
    (arrives : Arrives scope site next outer room aim tokens) (unanswered : site.Unanswered) :
    Halts scope limits room tokens next site.fault aim := by
  induction arrives with
  | inGroup opens _ ih => exact runs_group opens (.first (within_halts ih))
  | afterGroup opens inside closes _ ih =>
    exact runs_group opens (.bind (within_performs (performs inside))
      (.bind (.expect closes _) (withSuffixes_halts ih)))
  | inUnary is _ ih => exact unary_halts is ih
  | inBracket is provided _ ih => exact runs_bracket is provided (indexer_halts provided ih)
  | bracket is provided inside here =>
    subst here
    -- The arguments are read to the end; only then is no indexer found for them.
    exact runs_bracket is provided (index_halts provided inside unanswered)
  | name named ih =>
    obtain ⟨first,rest,rfl,spelling,is⟩ := named.starts
    exact runs_name is (ih _ _ _ rfl is)
  | inIndexed is opens walked provided _ ih =>
    rintro _ _ spelling same kind
    cases same
    cases is.symm.trans kind
    exact runs_indexed opens walked (indexer_halts provided ih)
  | indexed is opens walked provided inside here =>
    rintro _ _ spelling same kind
    cases same
    cases is.symm.trans kind
    subst here
    exact runs_indexed opens walked (index_halts provided inside unanswered)
  | inCalled is opens resolved _ ih =>
    rintro _ _ spelling same kind
    cases same
    cases is.symm.trans kind
    exact runs_called opens (runs_call resolved (.first (ih rfl)))
  | called is opens resolved inside here =>
    rintro _ _ spelling same kind
    cases same
    cases is.symm.trans kind
    subst here
    exact runs_called opens (call_halts resolved inside unanswered)
  | arguments inside ih =>
    intro closed
    obtain ⟨first,rest,rfl,starts⟩ := inside.starts
    refine runs_arguments ?_ fun steps enough => .first (ih _ _ closed enough)
    rintro rfl
    exact Bool.false_ne_true (closed.symm.trans starts)
  | inFirst _ ih =>
    intro opening steps _ enough
    obtain ⟨steps,rfl⟩ := Nat.exists_eq_add_one_of_ne_zero (Nat.ne_zero_of_lt enough)
    exact .first (inner_halts ih)
  | inRest first is _ ih =>
    intro opening steps operandless enough
    obtain ⟨steps,rfl⟩ := Nat.exists_eq_add_one_of_ne_zero (Nat.ne_zero_of_lt enough)
    rw [List.length_append,List.length_cons] at enough
    exact runs_more (argument_performs (performs first)) is (.first (ih _ _ operandless (by omega)))
  | inSuffix is named ih =>
    intro steps enough
    obtain ⟨first,behind,rfl,spelling,kind⟩ := named.starts
    simp only [List.length_cons] at enough
    obtain ⟨steps,rfl⟩ := Nat.exists_eq_add_one_of_ne_zero (show steps ≠ 0 by omega)
    exact runs_suffix is kind (.first (ih _ _ _ rfl kind))
  | afterSuffix is named _ ih =>
    intro steps enough
    obtain ⟨first,behind,rfl,spelling,kind⟩ := named.starts rfl
    simp only [List.length_append,List.length_cons] at enough
    obtain ⟨steps,rfl⟩ := Nat.exists_eq_add_one_of_ne_zero (show steps ≠ 0 by omega)
    exact runs_suffix is kind (.bind (performs named _ _ _ rfl kind) (ih _ (by omega)))
  | inPrimary _ ih => exact .first ih
  | afterPrimary first _ ih => exact .bind (performs first) (withSuffixes_halts ih)
  | inLeft _ ih => exact .first ih
  | inChain left _ ih =>
    change Fails (layered _ (_ + 1)) _ _ _
    exact .bind (performs left) (.tokensLeft_bind fun steps enough => ih _ _ rfl enough)
  | inRight is fits _ ih =>
    intro m steps same enough
    cases same
    simp only [List.length_cons] at enough
    obtain ⟨steps,rfl⟩ := Nat.exists_eq_add_one_of_ne_zero (show steps ≠ 0 by omega)
    exact runs_link is fits (.first ih)
  | afterRight is fits right typed _ ih =>
    intro m steps same enough
    cases same
    simp only [List.length_append,List.length_cons] at enough
    obtain ⟨steps,rfl⟩ := Nat.exists_eq_add_one_of_ne_zero (show steps ≠ 0 by omega)
    exact runs_link is fits (.bind (performs right)
      (.binding_bind (bindBinary_agrees _ _ _ _) typed (ih _ _ rfl (by omega))))

end Parser
end TypedFormula
