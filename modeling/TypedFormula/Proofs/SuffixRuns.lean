import TypedFormula.Proofs.SpanlessRuns
import TypedFormula.Proofs.Streams

namespace TypedFormula

open TypedFormula.Expr

variable {σ α β : Type}

theorem bind_congr_run {ρ : Type} {p q : EStateM Fault ρ α} {f : α → EStateM Fault ρ β} {s t : ρ} (same : p s = q t) :
    (p >>= f) s = (q >>= f) t := by
  rw [bind_run,bind_run,same]

theorem Proper.behind {token next : Token} {rest : List (Except Fault Token)} {notes : List Note}
    (ends : Proper ⟨token,.ok next :: rest,notes⟩) (more : List Note) : Proper ⟨next,rest,more⟩ := by
  have passed : Consumes ⟨token,.ok next :: rest,notes⟩ ⟨next,rest,more⟩ [token] := rfl
  exact passed.proper ends

namespace Parser

variable {scope : Scope σ} {limits : Limits} {inner : Inner σ} {room steps : Nat} {x : Expr σ} {spelling : String}
  {span place : Span} {rest : List (Except Fault Token)} {notes : List Note}

theorem named_shortens {target : Option (Expr σ)} {behind : ParseState} {y : Expr σ}
    (ends : Proper ⟨⟨.name spelling,span⟩,rest,notes⟩)
    (ran : named scope limits (innerOf scope limits room) spelling span target ⟨⟨.name spelling,span⟩,rest,notes⟩ =
      .ok y behind) : Proper behind ∧ behind.rest.length ≤ rest.length := by
  obtain ⟨tokens,consumed,_⟩ := named_reads (innerOf_reads scope limits room) ends rfl ran
  have lengths := consumed.length
  dsimp only at lengths
  exact ⟨consumed.proper ends,by omega⟩

theorem suffixes_named : suffixes scope limits inner (steps + 1) x
    ⟨⟨.dot,place⟩,.ok ⟨.name spelling,span⟩ :: rest,notes⟩ =
      (named scope limits inner spelling span (some x) >>= suffixes scope limits inner steps)
        ⟨⟨.name spelling,span⟩,rest,notes⟩ := rfl

theorem suffixes_agree {more : Nat} {reading : Except Fault Token}
    (agree : ∀ spelling span y behind, reading = .ok ⟨.name spelling,span⟩ →
      named scope limits inner spelling span (some x) ⟨⟨.name spelling,span⟩,rest,notes⟩ = .ok y behind →
      suffixes scope limits inner steps y behind = suffixes scope limits inner more y behind) :
    suffixes scope limits inner (steps + 1) x ⟨⟨.dot,place⟩,reading :: rest,notes⟩ =
      suffixes scope limits inner (more + 1) x ⟨⟨.dot,place⟩,reading :: rest,notes⟩ := by
  cases reading with
  | error fault => rfl
  | ok token =>
    obtain ⟨kind,span⟩ := token
    cases kind with
    | name spelling =>
      rw [suffixes_named,suffixes_named,bind_run,bind_run]
      cases ran : named scope limits inner spelling span (some x) ⟨⟨.name spelling,span⟩,rest,notes⟩ with
      | ok y behind => exact agree _ _ _ _ rfl ran
      | error fault behind => rfl
    | _ => rfl

-- With steps enough for the tokens that are left, their number makes no difference to the suffixes.
theorem suffixes_steps {more : Nat} {s : ParseState} (ends : Proper s) (enough : s.rest.length ≤ steps)
    (enoughMore : s.rest.length ≤ more) : suffixes scope limits (innerOf scope limits room) steps x s =
      suffixes scope limits (innerOf scope limits room) more x s := by
  induction steps generalizing more x s with
  | zero =>
    have noDot : s.current.kind ≠ .dot := by
      intro dot
      have filled := ends.rest_ne_nil (by rw [dot]; exact TokenKind.noConfusion)
      exact filled (List.length_eq_zero_iff.mp (Nat.le_zero.mp enough))
    rw [suffixes_stop noDot,suffixes_stop noDot]
  | succ steps ih =>
    by_cases dot : s.current.kind = .dot
    · obtain ⟨⟨_,place⟩,rest,notes⟩ := s
      cases dot
      obtain ⟨reading,rest,rfl⟩ := List.exists_cons_of_ne_nil (ends.rest_ne_nil TokenKind.noConfusion)
      dsimp only [List.length_cons] at enough enoughMore
      obtain ⟨more,rfl⟩ : ∃ n, more = n + 1 := ⟨more - 1,by omega⟩
      refine suffixes_agree fun spelling span y behind is ran => ?_
      subst is
      obtain ⟨proper,fewer⟩ := named_shortens (ends.behind notes) ran
      exact ih proper (by omega) (by omega)
    · rw [suffixes_stop dot,suffixes_stop dot]

theorem withSuffixes_stop {s : ParseState} (noDot : s.current.kind ≠ .dot) :
    withSuffixes scope limits inner x s = .ok x s :=
  suffixes_stop noDot

theorem withSuffixes_named (ends : Proper ⟨⟨.dot,place⟩,.ok ⟨.name spelling,span⟩ :: rest,notes⟩) :
    withSuffixes scope limits (innerOf scope limits room) x ⟨⟨.dot,place⟩,.ok ⟨.name spelling,span⟩ :: rest,notes⟩ =
      (named scope limits (innerOf scope limits room) spelling span (some x) >>=
        withSuffixes scope limits (innerOf scope limits room)) ⟨⟨.name spelling,span⟩,rest,notes⟩ := by
  have left : withSuffixes scope limits (innerOf scope limits room) x
      ⟨⟨.dot,place⟩,.ok ⟨.name spelling,span⟩ :: rest,notes⟩ =
      suffixes scope limits (innerOf scope limits room) (rest.length + 1) x
        ⟨⟨.dot,place⟩,.ok ⟨.name spelling,span⟩ :: rest,notes⟩ := rfl
  rw [left,suffixes_named,bind_run,bind_run]
  cases ran : named scope limits (innerOf scope limits room) spelling span (some x)
    ⟨⟨.name spelling,span⟩,rest,notes⟩ with
  | error fault last => rfl
  | ok y behind =>
    obtain ⟨proper,fewer⟩ := named_shortens (ends.behind notes) ran
    exact suffixes_steps proper fewer (Nat.le_refl _)

-- Suffixes end where no more follow.
theorem withSuffixes_twice {s : ParseState} (ends : Proper s) :
    (withSuffixes scope limits (innerOf scope limits room) x >>=
      withSuffixes scope limits (innerOf scope limits room)) s =
        withSuffixes scope limits (innerOf scope limits room) x s := by
  rw [bind_run]
  cases ran : withSuffixes scope limits (innerOf scope limits room) x s with
  | error fault last => rfl
  | ok e last =>
    obtain ⟨_,_,reads⟩ := withSuffixes_reads (innerOf_reads scope limits room) ends ran
    exact withSuffixes_stop reads.suffixed_ends

section Operands

variable {next : Token}

theorem operand_name : operand scope limits inner ⟨⟨.name spelling,span⟩,.ok next :: rest,notes⟩ =
    (resolved scope limits inner next.kind (scope.members (.ofText spelling span.start) none)
      (scope.callee (.ofText spelling span.start) none) span >>= withSuffixes scope limits inner)
        ⟨next,rest,notes⟩ := rfl

theorem operand_member (kind : TokenKind) (uncalled : kind ≠ .leftParen) (unindexed : kind ≠ .leftBracket) :
    operand scope limits inner ⟨⟨.name spelling,span⟩,.ok ⟨kind,place⟩ :: rest,notes⟩ =
      (Parse.bind (scope.members (.ofText spelling span.start) none) >>= withSuffixes scope limits inner)
        ⟨⟨kind,place⟩,rest,notes⟩ := by
  cases kind <;> first | rfl | contradiction

theorem operand_group : operand scope limits (innerOf scope limits (room + 1)) ⟨⟨.leftParen,place⟩,.ok next :: rest,notes⟩ =
    (within scope limits room .expression >>= fun e => (do
      let closing ← Parse.expect .rightParen
      withSuffixes scope limits (innerOf scope limits (room + 1)) (e.withSpan (place.union closing))) >>=
        withSuffixes scope limits (innerOf scope limits (room + 1))) ⟨next,rest,notes⟩ := by
  rw [← bind_assoc]
  rfl

theorem expression_operand {operand : Parse (Expr σ)} {s : ParseState}
    (stops : ∀ e last, operand s = .ok e last → last.current.kind.binaryOp? = none) (n : Nat) :
    expression operand n s = operand s := by
  rw [expression,bind_run]
  cases ran : operand s with
  | error fault last => rfl
  | ok e last =>
    refine operators_stop fun op is => ?_
    cases (stops e last ran).symm.trans is

end Operands

end Parser
end TypedFormula
