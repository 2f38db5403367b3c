import TypedFormula.Proofs.Invocations
import TypedFormula.Proofs.Soundness
import TypedFormula.Proofs.SpanNesting

namespace TypedFormula

open Text

variable {σ : Type} {registry : Registry σ} {limits : Limits} {text : String}

namespace Expr

def asksContext (e : Expr σ) : Prop := e.receiver? = some .context

variable {context other : Option Object}

theorem evaluateReceiver_contextless {receiver : Receiver (Expr σ)} (given : receiver ≠ .context)
    (below : ∀ x, receiver = .value x → x.evaluate context = x.evaluate other) (span : Span) :
    evaluateReceiver context span receiver = evaluateReceiver other span receiver := by
  cases receiver with
  | context => exact absurd rfl given
  | type => rfl
  | value x => exact below x rfl

theorem evaluateArgs_contextless {args : List (Expr σ)}
    (below : ∀ x ∈ args, x.evaluate context = x.evaluate other) :
    evaluateArgs context args = evaluateArgs other args := by
  induction args with
  | nil => rfl
  | cons x xs ih =>
    obtain ⟨first,others⟩ := List.forall_mem_cons.mp below
    rw [evaluateArgs,evaluateArgs,first,ih others]

theorem evaluate_contextless {e : Expr σ} (closed : ∀ node ∈ e.nodes, ¬node.asksContext) :
    e.evaluate context = e.evaluate other := by
  induction e using Expr.induction with
  | literal => rfl
  | unary op operand ty span ih =>
    obtain ⟨_,below⟩ := (forall_nodes_iff _).mp closed
    rw [evaluate,evaluate,ih (below operand List.mem_cons_self)]
  | binary op left right ty span leftIH rightIH =>
    obtain ⟨_,below⟩ := (forall_nodes_iff _).mp closed
    rw [evaluate,evaluate,leftIH (below left List.mem_cons_self),rightIH (below right (by simp [children]))]
  | member receiver m span ih =>
    obtain ⟨here,below⟩ := (forall_nodes_iff _).mp closed
    have same := evaluateReceiver_contextless (fun is => here (congrArg _ is)) fun x is => ih x is (below x (mem_target is))
    rw [evaluate,evaluate,same]
  | call receiver m args span ih argsIH =>
    obtain ⟨here,below⟩ := (forall_nodes_iff _).mp closed
    have same := evaluateReceiver_contextless (fun is => here (congrArg _ is))
      fun x is => ih x is (below x (List.mem_append_left _ (mem_target is)))
    have passed := evaluateArgs_contextless fun x present => argsIH x present (below x (List.mem_append_right _ present))
    rw [evaluate,evaluate,same,passed]
  | index receiver ix args span ih argsIH =>
    obtain ⟨here,below⟩ := (forall_nodes_iff _).mp closed
    have same := evaluateReceiver_contextless (fun is => here (congrArg _ is))
      fun x is => ih x is (below x (List.mem_append_left _ (mem_target is)))
    have passed := evaluateArgs_contextless fun x present => argsIH x present (below x (List.mem_append_right _ present))
    rw [evaluate,evaluate,same,passed]

end Expr

theorem WellBound.contextless {scope : Scope σ} {e : Expr σ} (bound : WellBound scope e)
    (none : scope.context = none) : ∀ node ∈ e.nodes, ¬node.asksContext := by
  have missing : ∀ {r : Receiver (Expr σ)} {info : TypeInfo σ}, scope.provider? r = some info → r ≠ .context := by
    rintro _ info provided rfl
    rw [Scope.provider?,none] at provided
    cases provided
  induction e using Expr.children_induction with
  | step e ih =>
    refine (Expr.forall_nodes_iff e).mpr ⟨?_,fun child isChild => ih child isChild (bound.child isChild)⟩
    intro asks
    cases bound with
    | literal | unary | binary => cases asks
    | member _ provided | call _ _ provided | index _ _ _ provided => exact missing provided (Option.some.inj asks)

namespace CompiledFormula

theorem evaluateWith_same {f : CompiledFormula σ} {bound o : Object} (is : f.context = some bound)
    (same : o.typeName = bound.typeName) : f.evaluateWith o = (⟨f.expr,some o⟩ : CompiledFormula σ).evaluate := by
  unfold evaluateWith
  rw [is]
  exact if_pos same.symm

theorem evaluateWith_foreign {f : CompiledFormula σ} {bound o : Object} (is : f.context = some bound)
    (other : o.typeName ≠ bound.typeName) : f.evaluateWith o =
      throw ⟨.foreignContext bound.typeName o.typeName,f.expr.span⟩ := by
  unfold evaluateWith
  rw [is]
  exact if_neg other.symm

theorem evaluateWith_contextless {f : CompiledFormula σ} (is : f.context = none)
    (closed : ∀ node ∈ f.expr.nodes, ¬node.asksContext) (o : Object) : f.evaluateWith o = f.evaluate := by
  unfold evaluateWith evaluate
  rw [is]
  exact Expr.evaluate_contextless closed

end CompiledFormula

namespace Engine

theorem compile_other {bound o : Object} {f : CompiledFormula σ} {notes : List Note}
    (compiled : compile registry (some bound) limits text = (.ok f,notes)) (same : o.typeName = bound.typeName) :
    compile registry (some o) limits text = (.ok ⟨f.expr,some o⟩,notes) := by
  have scopes : scope registry (some o) = scope registry (some bound) := by
    unfold scope
    rw [Option.map_some,Option.map_some,same]
  unfold compile parse at compiled ⊢
  rw [scopes]
  split at compiled
  · cases compiled
    rfl
  · cases compiled

-- A compiled formula depends on its context object only through its type. Another object of the type gives
-- what the formula compiled for it gives; an object of another type is a fault of the whole formula, and no
-- accessor is invoked; and a formula compiled without an object gives the same with any.
theorem bound_to_type (registry : Registry σ) (limits : Limits) (text : String) :
    (∀ bound f notes, compile registry (some bound) limits text = (.ok f,notes) → ∀ o : Object,
      (o.typeName = bound.typeName → ∃ f', compile registry (some o) limits text = (.ok f',notes) ∧
        f'.expr = f.expr ∧ ∀ state, f.evaluateWith o state = f'.evaluate state) ∧
      (o.typeName ≠ bound.typeName → ∃ fault, fault.cause.kind = .runtime ∧ fault.span = f.expr.span ∧
        Between text.toList fault.span.start fault.span.stop (trim text.toList) ∧
        ∀ state, f.evaluateWith o state = .error fault state ∧
          ∀ calls, f.recorded.evaluateWith o (state,calls) = .error fault (state,calls))) ∧
    ∀ f notes, compile registry none limits text = (.ok f,notes) →
      (∀ node ∈ f.expr.nodes, ¬node.asksContext) ∧ ∀ o state, f.evaluateWith o state = f.evaluate state := by
  constructor
  · intro bound f notes compiled o
    obtain ⟨parsed,given⟩ := Soundness.compile_succeeds compiled
    constructor
    · intro same
      exact ⟨_,compile_other compiled same,rfl,congrFun (CompiledFormula.evaluateWith_same given same)⟩
    · intro foreign
      obtain ⟨_,_,whole⟩ := Parser.nested_of_parsed parsed
      refine ⟨⟨.foreignContext bound.typeName o.typeName,f.expr.span⟩,rfl,rfl,whole,?_⟩
      intro state
      rw [CompiledFormula.evaluateWith_foreign given foreign]
      refine ⟨rfl,fun calls => ?_⟩
      have recorded : f.recorded.context = some bound := given
      rw [CompiledFormula.evaluateWith_foreign recorded foreign,CompiledFormula.recorded,Expr.span_recorded]
      rfl
  · intro f notes compiled
    obtain ⟨parsed,given⟩ := Soundness.compile_succeeds compiled
    have closed := (Soundness.compiled_bound parsed).contextless rfl
    exact ⟨closed,fun o => congrFun (CompiledFormula.evaluateWith_contextless given closed o)⟩

theorem compile_accepted {context : Option Object}
    (accepted : (compile registry context limits text).1.isOk = true) :
    ∃ f notes, compile registry context limits text = (.ok f,notes) := by
  obtain ⟨f,compiled⟩ := exists_ok accepted
  exact ⟨f,_,Prod.ext compiled rfl⟩

-- A formula on a box gives for another box what it gives when it is compiled for that box, and nothing for a
-- lid; a formula on no context gives the same for a lid.
theorem boxes_exchanged :
    (∃ f notes, compile Parser.boxScope.registry (some ⟨"Box",0⟩) {} "Inner.Size + [1].Size" = (.ok f,notes) ∧
      (∃ f', compile Parser.boxScope.registry (some ⟨"Box",1⟩) {} "Inner.Size + [1].Size" = (.ok f',notes) ∧
        f'.expr = f.expr ∧ ∀ state, f.evaluateWith ⟨"Box",1⟩ state = f'.evaluate state) ∧
      ∃ fault, fault.cause.kind = .runtime ∧ fault.span = f.expr.span ∧
        Between "Inner.Size + [1].Size".toList fault.span.start fault.span.stop (trim "Inner.Size + [1].Size".toList) ∧
        ∀ state, f.evaluateWith ⟨"Lid",2⟩ state = .error fault state ∧
          ∀ calls, f.recorded.evaluateWith ⟨"Lid",2⟩ (state,calls) = .error fault (state,calls)) ∧
    ∃ f notes, compile Parser.boxScope.registry none {} "Math.Max(2, 9).ToString()" = (.ok f,notes) ∧
      (∀ node ∈ f.expr.nodes, ¬node.asksContext) ∧ ∀ o state, f.evaluateWith o state = f.evaluate state := by
  obtain ⟨f,notes,compiled⟩ : ∃ f notes,
      compile Parser.boxScope.registry (some ⟨"Box",0⟩) {} "Inner.Size + [1].Size" = (.ok f,notes) :=
    compile_accepted (by decide +kernel)
  obtain ⟨g,others,closed⟩ : ∃ g others,
      compile Parser.boxScope.registry none {} "Math.Max(2, 9).ToString()" = (.ok g,others) :=
    compile_accepted (by decide +kernel)
  refine ⟨⟨f,notes,compiled,?_,?_⟩,g,others,closed,(bound_to_type _ _ _).2 g others closed⟩
  · exact ((bound_to_type _ _ _).1 _ f notes compiled ⟨"Box",1⟩).1 rfl
  · exact ((bound_to_type _ _ _).1 _ f notes compiled ⟨"Lid",2⟩).2 (by decide)

end Engine
end TypedFormula
