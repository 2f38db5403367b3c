import TypedFormula.Proofs.OperatorLayers

namespace TypedFormula

variable {σ α β : Type}

theorem readings_ahead (tokens : List Token) (next : Token) (rest : List (Except Fault Token)) :
    ∃ behind, tokens.map Except.ok ++ .ok next :: rest = .ok (ahead tokens next) :: behind := by
  cases tokens with
  | nil => exact ⟨rest,rfl⟩
  | cons token tokens => exact ⟨_,rfl⟩

-- From a state that has these tokens and then `next` in front of it, the computation has such an outcome,
-- given the readings behind `next`.
def Runs (p : Parse α) (tokens : List Token) (next : Token)
    (such : List (Except Fault Token) → EStateM.Result Fault ParseState α → Prop) : Prop :=
  ∀ s rest, Proper s → s.stream = tokens.map .ok ++ .ok next :: rest → such rest (p s)

-- The computation returns `a` and stops at `next`.
def Yields (p : Parse α) (tokens : List Token) (next : Token) (a : α) : Prop :=
  Runs p tokens next fun rest outcome => ∃ notes, outcome = .ok a ⟨next,rest,notes⟩

def Fails (p : Parse α) (tokens : List Token) (next : Token) (fault : Fault) : Prop :=
  Runs p tokens next fun _ outcome => ∃ last, outcome = .error fault last

variable {p : Parse α} {tokens others : List Token} {token next : Token} {a : α}
  {such : List (Except Fault Token) → EStateM.Result Fault ParseState β → Prop}

namespace Runs

theorem stop (stops : ∀ s : ParseState, s.current = next → p s = .ok a s) : Yields p [] next a := by
  intro s rest _ stream
  refine ⟨s.notes,(stops s (Except.ok.inj (List.cons.inj stream).1)).trans ?_⟩
  cases s
  cases stream
  rfl

theorem pure (a : α) (next : Token) : Yields (pure a) [] next a :=
  .stop fun _ _ => rfl

theorem bump (token next : Token) : Yields Parse.bump [token] next () := by
  intro s rest _ stream
  refine ⟨s.notes,Parse.bump_succeeds.mpr (.inr ⟨next,rest,?_,rfl⟩)⟩
  exact (List.cons.inj stream).2

theorem binding {step : Binding α} {found : Option α} (agrees : Binding.Agrees step found)
    (same : found = some a) (next : Token) : Yields (Parse.bind step) [] next a := by
  intro s rest _ stream
  obtain ⟨notes,bound⟩ := (agrees s.notes a).mpr same
  refine ⟨notes,Parse.bind_binding_succeeds.mpr ⟨notes,bound,?_⟩⟩
  cases s
  cases stream
  rfl

theorem first {f : α → Parse β} {fault : Fault} (failed : Fails p tokens next fault) :
    Fails (p >>= f) tokens next fault := by
  intro s rest ends stream
  obtain ⟨last,ran⟩ := failed s rest ends stream
  exact ⟨last,bind_fails.mpr (.inl ran)⟩

theorem bind {f : α → Parse β} (first : Yields p tokens (ahead others next) a)
    (second : Runs (f a) others next such) : Runs (p >>= f) (tokens ++ others) next such := by
  intro s rest ends stream
  obtain ⟨behind,split⟩ := readings_ahead others next rest
  rw [List.map_append,List.append_assoc,split] at stream
  obtain ⟨notes,ran⟩ := first s behind ends stream
  have consumed : Consumes s ⟨ahead others next,behind,notes⟩ tokens := stream
  rw [bind_run,ran]
  exact second _ rest (consumed.proper ends) split.symm

theorem bind_last {f : α → Parse β} (first : Yields p tokens next a) (second : Runs (f a) [] next such) :
    Runs (p >>= f) tokens next such := by
  rw [← List.append_nil tokens]
  exact bind first second

theorem current_bind {f : Token → Parse β} (second : Runs (f (ahead tokens next)) tokens next such) :
    Runs (Parse.current >>= f) tokens next such := by
  intro s rest ends stream
  have consumed : Consumes s ⟨next,rest,s.notes⟩ tokens := stream
  have ran := second s rest ends stream
  rwa [← consumed.current] at ran

theorem bump_bind {f : Unit → Parse β} (second : Runs (f ()) tokens next such) :
    Runs (Parse.bump >>= f) (token :: tokens) next such :=
  bind (.bump token (ahead tokens next)) second

-- At least as many readings are left as the tokens to be read.
theorem tokensLeft_bind {f : Nat → Parse β}
    (second : ∀ steps, tokens.length ≤ steps → Runs (f steps) tokens next such) :
    Runs (Parse.tokensLeft >>= f) tokens next such := by
  intro s rest ends stream
  have consumed : Consumes s ⟨next,rest,s.notes⟩ tokens := stream
  exact second _ (Nat.le.intro consumed.length.symm) s rest ends stream

theorem binding_bind {step : Binding α} {found : Option α} {f : α → Parse β}
    (agrees : Binding.Agrees step found) (same : found = some a) (second : Runs (f a) tokens next such) :
    Runs (Parse.bind step >>= f) tokens next such :=
  bind (.binding agrees same (ahead tokens next)) second

theorem expect {kind : TokenKind} (is : token.kind = kind) (next : Token) :
    Yields (Parse.expect kind) [token] next token.span := by
  refine .current_bind ?_
  rw [if_pos (show (ahead [token] next).kind = kind from is)]
  exact .bump_bind (.pure _ _)

end Runs

theorem Scope.context_isNone_of_indexed {scope : Scope σ} {receiver : Receiver (Expr σ)} {info : TypeInfo σ}
    (provided : scope.indexed? none = some (receiver,info)) : scope.context.isNone = false := by
  unfold indexed? provider? at provided
  cases bound : scope.context with
  | none => rw [bound] at provided; cases provided
  | some typeName => rfl

namespace Parser

variable {scope : Scope σ} {limits : Limits} {inner : Inner σ} {room steps : Nat} {opening first : Token}
  {spelling : String} {span : Span} {x : Expr σ} {target : Option (Expr σ)} {receiver : Receiver (Expr σ)}
  {info : TypeInfo σ} {close : TokenKind}

theorem suffixes_stop {s : ParseState} (noDot : s.current.kind ≠ .dot) :
    suffixes scope limits inner steps x s = .ok x s := by
  cases steps with
  | zero => rfl
  | succ steps =>
    rw [suffixes,Parse.current_run]
    exact congrFun (if_neg noDot) s

section Trees

variable {such : List (Except Fault Token) → EStateM.Result Fault ParseState (Expr σ) → Prop}

theorem runs_group (opens : opening.kind = .leftParen)
    (run : Runs (within scope limits room .expression >>= fun e => do
      let closing ← Parse.expect .rightParen
      withSuffixes scope limits (innerOf scope limits (room + 1)) (e.withSpan (opening.span.union closing)))
        tokens next such) :
    Runs (primary scope limits (innerOf scope limits (room + 1))) (opening :: tokens) next such := by
  refine .current_bind ?_
  simp only [ahead_cons,opens,TokenKind.literal?]
  exact .bind (.pure _ _) (.bump_bind run)

theorem runs_unary {op : UnaryOp} (is : token.kind.unaryOp? = some op)
    (run : Runs (within scope limits room .primary >>= fun e => Parse.bind (bindUnary op token.span e))
      tokens next such) :
    Runs (primary scope limits (innerOf scope limits (room + 1))) (token :: tokens) next such := by
  have whole : Runs (unary limits (innerOf scope limits (room + 1)) op token.span) (token :: tokens) next such :=
    .bind (.pure _ _) (.bump_bind run)
  refine .current_bind ?_
  generalize kindNow : token.kind = kind at is
  cases kind with
  | minus => cases is; simpa only [ahead_cons,kindNow,TokenKind.literal?] using whole
  | not => cases is; simpa only [ahead_cons,kindNow,TokenKind.literal?] using whole
  | _ => cases is

theorem runs_bracket (is : token.kind = .leftBracket) (provided : scope.indexed? none = some (receiver,info))
    (run : Runs (indexer scope limits inner none token.span) (token :: tokens) next such) :
    Runs (primary scope limits inner) (token :: tokens) next such := by
  refine .current_bind ?_
  simp only [ahead_cons,is,TokenKind.literal?]
  rwa [if_neg (by rw [scope.context_isNone_of_indexed provided]; decide)]

theorem runs_name (is : token.kind = .name spelling)
    (run : Runs (named scope limits inner spelling token.span none) (token :: tokens) next such) :
    Runs (primary scope limits inner) (token :: tokens) next such := by
  refine .current_bind ?_
  simpa only [ahead_cons,is,TokenKind.literal?] using run

theorem runs_indexed (opens : opening.kind = .leftBracket)
    (walked : scope.members? (.ofText spelling token.span.start) target = some x)
    (run : Runs (indexer scope limits inner (some x) token.span) (opening :: tokens) next such) :
    Runs (named scope limits inner spelling token.span target) (token :: opening :: tokens) next such := by
  refine .bump_bind (.current_bind ?_)
  simp only [ahead_cons,opens]
  exact .binding_bind (scope.members_agrees _ _) walked run

theorem runs_called (opens : opening.kind = .leftParen)
    (run : Runs (call scope limits inner (.ofText spelling token.span.start) token.span target) (opening :: tokens)
      next such) :
    Runs (named scope limits inner spelling token.span target) (token :: opening :: tokens) next such := by
  refine .bump_bind (.current_bind ?_)
  simpa only [ahead_cons,opens] using run

theorem runs_indexer (provided : scope.indexed? target = some (receiver,info))
    (run : Runs (arguments limits inner .rightBracket >>= fun args =>
      Parse.bind (Scope.index receiver info args.1 span opening.span args.2)) (opening :: tokens) next such) :
    Runs (indexer scope limits inner target span) (opening :: tokens) next such :=
  .binding_bind (scope.indexed_agrees target span) provided (.current_bind run)

theorem runs_call {name : DottedName} {callee : Scope.Callee σ} (resolved : scope.callee? name target = some callee)
    (run : Runs (arguments limits inner .rightParen >>= fun args =>
      Parse.bind (Scope.call callee args.1 span args.2)) tokens next such) :
    Runs (call scope limits inner name span target) tokens next such :=
  .binding_bind (scope.callee_agrees name target) resolved run

theorem runs_suffix {dot : Token} (is : dot.kind = .dot) (kind : first.kind = .name spelling)
    (run : Runs (named scope limits inner spelling first.span (some x) >>= suffixes scope limits inner steps)
      (first :: tokens) next such) :
    Runs (suffixes scope limits inner (steps + 1) x) (dot :: first :: tokens) next such := by
  refine .current_bind ?_
  rw [if_pos (show (ahead (dot :: _) _).kind = .dot from is)]
  refine .bump_bind (.current_bind ?_)
  simpa only [ahead_cons,kind] using run

theorem runs_link {operand : Parse (Expr σ)} {n : Nat} {op : BinaryOp} (is : token.kind.binaryOp? = some op)
    (fits : op.layer = n)
    (run : Runs (operand >>= fun y => Parse.bind (bindBinary op token.span x y) >>= chain operand n steps)
      tokens next such) :
    Runs (chain operand n (steps + 1) x) (token :: tokens) next such := by
  refine .current_bind ?_
  simp only [ahead_cons,is]
  rw [if_pos fits]
  exact .bump_bind run

end Trees

theorem runs_arguments {such : List (Except Fault Token) → EStateM.Result Fault ParseState (List (Expr σ) × Span) → Prop}
    (differs : first.kind ≠ close)
    (run : ∀ steps, (first :: tokens).length < steps →
      Runs (separated (do (← nested limits inner opening.span) .expression) close steps >>= fun es => do
        let closing ← Parse.current
        Parse.bump
        pure (es,closing.span)) (first :: tokens) next such) :
    Runs (arguments limits inner close) (opening :: first :: tokens) next such := by
  refine .current_bind (.bump_bind (.current_bind ?_))
  rw [if_neg (show (ahead (first :: _) _).kind ≠ close from differs)]
  exact .tokensLeft_bind fun steps enough => run _ (Nat.lt_succ_of_le enough)

theorem runs_more {such : List (Except Fault Token) → EStateM.Result Fault ParseState (List (Expr σ)) → Prop}
    {element : Parse (Expr σ)} {comma : Token} (read : Yields element tokens comma x) (is : comma.kind = .comma)
    (run : Runs (separated element close steps >>= fun es => pure (x :: es)) others next such) :
    Runs (separated element close (steps + 1)) (tokens ++ comma :: others) next such := by
  refine .bind read (.current_bind ?_)
  rw [if_pos (show (ahead (comma :: _) _).kind = .comma from is)]
  exact .bump_bind run

end Parser
end TypedFormula
