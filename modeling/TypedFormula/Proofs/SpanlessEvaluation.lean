import TypedFormula.Evaluation
import TypedFormula.Proofs.Alike
import TypedFormula.Proofs.Outcomes

namespace TypedFormula

variable {σ α β : Type}

namespace Evaluation

-- The same result, but for the span that a fault is blamed on.
def Matches : EStateM.Result Fault σ α → EStateM.Result Fault σ α → Prop
  | .ok a state, .ok b other => a = b ∧ state = other
  | .error fault state, .error blamed other => fault.cause = blamed.cause ∧ state = other
  | _, _ => False

theorem Matches.refl (result : EStateM.Result Fault σ α) : Matches result result := by
  cases result <;> exact ⟨rfl,rfl⟩

theorem Matches.bind {first other : Evaluation σ α} {next following : α → Evaluation σ β} {state : σ}
    (one : Matches (first state) (other state))
    (two : ∀ a middle, Matches (next a middle) (following a middle)) :
    Matches ((first >>= next) state) ((other >>= following) state) := by
  rw [bind_run,bind_run]
  cases ran : first state with
  | ok a middle =>
    rw [ran] at one
    cases ranOther : other state with
    | ok b last =>
      rw [ranOther] at one
      obtain ⟨rfl,rfl⟩ := one
      exact two a middle
    | error => rw [ranOther] at one; exact one.elim
  | error fault middle =>
    rw [ran] at one
    cases ranOther : other state with
    | ok => rw [ranOther] at one; exact one.elim
    | error blamed last =>
      rw [ranOther] at one
      exact one

theorem matches_ofExcept (outcome : Except Cause α) (span other : Span) (state : σ) :
    Matches (ofExcept span outcome state) (ofExcept other outcome state) := by
  cases outcome <;> exact ⟨rfl,rfl⟩

theorem matches_access (accessor : String) (run : Access σ α) (span other : Span) (state : σ) :
    Matches (access accessor span run state) (access accessor other run state) := by
  unfold access
  cases run state <;> exact ⟨rfl,rfl⟩

end Evaluation

namespace Expr

open Evaluation

variable {context : Option Object}

theorem evaluateReceiver_matches {x y : Receiver (Expr σ)} (alike : ReceiversAlike Eq x y)
    (below : ∀ target, x = .value target → ∀ e, Alike Eq target e → ∀ state,
      Matches (target.evaluate context state) (e.evaluate context state)) (span other : Span) (state : σ) :
    Matches (evaluateReceiver context span x state) (evaluateReceiver context other y state) := by
  cases x <;> cases y <;> simp only [ReceiversAlike] at alike
  · cases context <;> exact ⟨rfl,rfl⟩
  · exact ⟨rfl,rfl⟩
  · exact below _ rfl _ alike state

theorem evaluateArgs_matches {xs ys : List (Expr σ)} (alike : ListsAlike Eq xs ys)
    (below : ∀ x ∈ xs, ∀ e, Alike Eq x e → ∀ state,
      Matches (x.evaluate context state) (e.evaluate context state)) (state : σ) :
    Matches (evaluateArgs context xs state) (evaluateArgs context ys state) := by
  induction xs generalizing ys state with
  | nil =>
    cases ys with
    | nil => exact .refl _
    | cons => exact alike.elim
  | cons x xs ih =>
    cases ys with
    | nil => exact alike.elim
    | cons y ys =>
      rw [evaluateArgs,evaluateArgs]
      refine .bind (below x List.mem_cons_self y alike.1 state) fun value middle => ?_
      have others := ih alike.2 (fun other present => below other (List.mem_cons_of_mem _ present)) middle
      exact .bind others fun values last => .refl _

theorem evaluate_matches {x y : Expr σ} (alike : Alike Eq x y) (state : σ) :
    Matches (x.evaluate context state) (y.evaluate context state) := by
  induction x using Expr.induction generalizing y state with
  | literal v span =>
    cases y <;> simp only [Alike] at alike
    rw [evaluate,evaluate,alike]
    exact .refl _
  | unary op operand ty span below =>
    cases y <;> simp only [Alike] at alike
    rw [evaluate,evaluate,alike.1]
    exact .bind (below alike.2.2 state) fun value middle => matches_ofExcept _ _ _ middle
  | binary op left right ty span first second =>
    cases y <;> simp only [Alike] at alike
    rw [evaluate,evaluate,alike.1]
    refine .bind (first alike.2.2.1 state) fun a middle => ?_
    exact .bind (second alike.2.2.2 middle) fun b last => matches_ofExcept _ _ _ last
  | member receiver m span below =>
    cases y <;> simp only [Alike] at alike
    rw [evaluate,evaluate,alike.1]
    have received := evaluateReceiver_matches alike.2 fun target same e like => below target same like
    exact .bind (received _ _ state) fun target middle => matches_access _ _ _ _ middle
  | call receiver m args span below arguments =>
    cases y <;> simp only [Alike] at alike
    rw [evaluate,evaluate,alike.1]
    have received := evaluateReceiver_matches alike.2.1 fun target same e like => below target same like
    have passed := evaluateArgs_matches alike.2.2 fun arg present e like => arguments arg present like
    refine .bind (received _ _ state) fun target middle => ?_
    exact .bind (passed middle) fun values last => matches_access _ _ _ _ last
  | index receiver ix args span below arguments =>
    cases y <;> simp only [Alike] at alike
    rw [evaluate,evaluate,alike.1]
    have received := evaluateReceiver_matches alike.2.1 fun target same e like => below target same like
    have passed := evaluateArgs_matches alike.2.2 fun arg present e like => arguments arg present like
    refine .bind (received _ _ state) fun target middle => ?_
    exact .bind (passed middle) fun values last => matches_access _ _ _ _ last

end Expr
end TypedFormula
