import Mathlib.Data.List.Perm.Basic
import TypedFormula.Evaluation
import TypedFormula.Proofs.Outcomes
import TypedFormula.Proofs.Trees

namespace TypedFormula

variable {σ : Type}

namespace UnaryOp

theorem apply_runtime {op : UnaryOp} {value : Value} {cause : Cause} (failed : op.apply value = .error cause) :
    cause.kind = .runtime := by
  unfold apply at failed
  split at failed <;> cases failed
  rfl

end UnaryOp

namespace BinaryOp

def AtRuntime (outcome : Except Cause Value) : Prop := ∀ cause, outcome = .error cause → cause.kind = .runtime

theorem atRuntime_ok (value : Value) : AtRuntime (.ok value) := fun _ failed => by cases failed

theorem atRuntime_error {cause : Cause} (runtime : cause.kind = .runtime) : AtRuntime (.error cause) := by
  intro other failed
  cases failed
  exact runtime

theorem undefined_runtime (op : BinaryOp) (left right : Value) : AtRuntime (op.undefined left right) :=
  atRuntime_error rfl

theorem decimalResult_runtime (op : BinaryOp) (result : Option Decimal) :
    AtRuntime (decimalResult op result) := by
  cases result with
  | none => exact atRuntime_error rfl
  | some d => exact atRuntime_ok _

theorem applyInt_runtime (op : BinaryOp) (a b : Int32) : AtRuntime (op.applyInt a b) := by
  cases op <;> try exact atRuntime_ok _
  case divide =>
    unfold applyInt
    dsimp only
    split
    · exact atRuntime_error rfl
    split
    · exact atRuntime_error rfl
    · exact atRuntime_ok _
  all_goals exact undefined_runtime _ _ _

theorem applyDecimal_runtime (op : BinaryOp) (a b : Decimal) : AtRuntime (op.applyDecimal a b) := by
  cases op <;> try exact decimalResult_runtime _ _
  case divide =>
    unfold applyDecimal
    dsimp only
    split
    · exact atRuntime_error rfl
    · exact decimalResult_runtime _ _
  all_goals exact undefined_runtime _ _ _

theorem combine_runtime (op : BinaryOp) (left right : Value) : AtRuntime (op.combine left right) := by
  unfold combine
  split
  · exact applyInt_runtime _ _ _
  · cases op <;> first | exact atRuntime_ok _ | exact undefined_runtime _ _ _
  · cases op <;> first | exact atRuntime_ok _ | exact undefined_runtime _ _ _
  · exact applyDecimal_runtime _ _ _
  · cases op <;> first | exact atRuntime_ok _ | exact undefined_runtime _ _ _
  · exact undefined_runtime _ _ _

theorem apply_runtime (op : BinaryOp) (left right : Value) : AtRuntime (op.apply left right) := by
  unfold apply
  split
  · exact atRuntime_ok _
  · exact atRuntime_ok _
  all_goals try exact combine_runtime _ _ _
  all_goals
    split
    · exact atRuntime_ok _
    · exact undefined_runtime _ _ _

end BinaryOp

-- The context object or a type is supplied as the receiver of the node that uses it, or a node is carried
-- out.
inductive Step (σ : Type) where
  | context (user : Expr σ)
  | type (user : Expr σ)
  | node (e : Expr σ)

namespace Step

def span : Step σ → Span
  | .context user => user.span
  | .type user => user.span
  | .node e => e.span

def node? : Step σ → Option (Expr σ)
  | .node e => some e
  | _ => none

end Step

namespace Expr

mutual

def steps : Expr σ → List (Step σ)
  | .literal value span => [.node (.literal value span)]
  | .unary op operand ty span => operand.steps ++ [.node (.unary op operand ty span)]
  | .binary op left right ty span =>
    left.steps ++ right.steps ++ [.node (.binary op left right ty span)]
  | .member receiver m span =>
    receiverSteps (.member receiver m span) receiver ++ [.node (.member receiver m span)]
  | .call receiver m args span =>
    receiverSteps (.call receiver m args span) receiver ++ listSteps args ++
      [.node (.call receiver m args span)]
  | .index receiver ix args span =>
    receiverSteps (.index receiver ix args span) receiver ++ listSteps args ++
      [.node (.index receiver ix args span)]

def receiverSteps (user : Expr σ) : Receiver (Expr σ) → List (Step σ)
  | .context => [.context user]
  | .type _ => [.type user]
  | .value target => target.steps

def listSteps : List (Expr σ) → List (Step σ)
  | [] => []
  | e :: es => e.steps ++ listSteps es

end

def arity : Expr σ → Nat
  | .literal _ _ => 0
  | .unary _ _ _ _ => 1
  | .binary _ _ _ _ _ => 2
  | .member _ _ _ => 1
  | .call _ _ args _ => args.length + 1
  | .index _ _ args _ => args.length + 1

def operate : Expr σ → List Value → Evaluation σ Value
  | .literal value _, _ => pure value
  | .unary op _ _ span, values => .ofExcept span (op.apply (values.headD .unit))
  | .binary op _ _ _ span, values =>
    .ofExcept span (op.apply (values.headD .unit) (values.getD 1 .unit))
  | .member _ m span, values => .access m.name span (m.get (values.headD .unit))
  | .call _ m _ span, values => .access m.name span (m.invoke (values.headD .unit) values.tail)
  | .index _ ix _ span, values => .access "indexer" span (ix.get (values.headD .unit) values.tail)

def postorder (e : Expr σ) : List (Expr σ) := e.steps.filterMap Step.node?

-- What a node has to have supplied before the trees below it are evaluated.
def supply (e : Expr σ) : List (Step σ) :=
  match e.receiver? with
  | some .context => [.context e]
  | some (.type _) => [.type e]
  | _ => []

theorem listSteps_eq (args : List (Expr σ)) : listSteps args = args.flatMap steps := by
  induction args with
  | nil => rfl
  | cons e es ih => rw [listSteps,List.flatMap_cons,ih]

-- The steps of a tree come behind those of the trees below it, the root last.
theorem steps_eq (e : Expr σ) : e.steps = e.supply ++ e.children.flatMap steps ++ [.node e] := by
  cases e with
  | literal => rfl
  | unary | binary => simp [steps,supply,children,receiver?]
  | member receiver | call receiver | index receiver =>
    cases receiver <;>
      simp [steps,receiverSteps,supply,children,receiver?,Receiver.target?,listSteps_eq]

theorem steps_root (e : Expr σ) : ∃ done, e.steps = done ++ [.node e] := ⟨_,e.steps_eq⟩

theorem supply_nodes (e : Expr σ) : e.supply.filterMap Step.node? = [] := by
  unfold supply
  split <;> rfl

theorem postorder_eq (e : Expr σ) : e.postorder = e.children.flatMap postorder ++ [e] := by
  rw [postorder,steps_eq,List.filterMap_append,List.filterMap_append,supply_nodes,List.filterMap_flatMap]
  rfl

theorem postorder_perm (e : Expr σ) : e.postorder.Perm e.nodes := by
  induction e using children_induction with
  | step e below =>
    rw [postorder_eq,nodes_eq]
    have order : (e.children.flatMap postorder).Perm (e.children.flatMap nodes) :=
      List.Perm.flatMap_left e.children below
    exact (order.append_right [e]).trans (List.perm_append_singleton e _)

end Expr

-- Where a step belongs in a tree: it carries out one of the nodes, or supplies what one of the nodes has
-- for a receiver.
def Step.Within (e : Expr σ) : Step σ → Prop
  | .context user => user ∈ e.nodes ∧ user.receiver? = some .context
  | .type user => user ∈ e.nodes ∧ ∃ name, user.receiver? = some (.type name)
  | .node part => part ∈ e.nodes

theorem Expr.mem_nodes_root (e : Expr σ) : e ∈ e.nodes := by
  rw [nodes_eq]
  exact List.mem_cons_self

theorem Step.Within.lift {e child : Expr σ} (isChild : child ∈ e.children) {step : Step σ}
    (within : step.Within child) : step.Within e := by
  have below : ∀ node ∈ child.nodes, node ∈ e.nodes := by
    intro node present
    rw [Expr.nodes_eq]
    exact List.mem_cons_of_mem _ (List.mem_flatMap.mpr ⟨child,isChild,present⟩)
  cases step with
  | context user => exact ⟨below _ within.1,within.2⟩
  | type user => exact ⟨below _ within.1,within.2⟩
  | node part => exact below _ within

namespace Expr

theorem supply_within (e : Expr σ) : ∀ step ∈ e.supply, step.Within e := by
  unfold supply
  split
  · exact List.forall_mem_singleton.mpr ⟨e.mem_nodes_root,‹_›⟩
  · exact List.forall_mem_singleton.mpr ⟨e.mem_nodes_root,_,‹_›⟩
  · exact List.forall_mem_nil _

theorem steps_within (e : Expr σ) : ∀ step ∈ e.steps, step.Within e := by
  induction e using children_induction with
  | step e below =>
    intro step present
    rw [steps_eq] at present
    rcases List.mem_append.mp present with earlier | last
    · rcases List.mem_append.mp earlier with supplied | inside
      · exact e.supply_within step supplied
      · obtain ⟨child,isChild,inside⟩ := List.mem_flatMap.mp inside
        exact (below child isChild step inside).lift isChild
    · cases List.mem_singleton.mp last
      exact e.mem_nodes_root

end Expr

namespace Evaluation

theorem ofExcept_fails {α : Type} {span : Span} {outcome : Except Cause α} {state last : σ} {fault : Fault}
    (failed : ofExcept span outcome state = .error fault last) :
    ∃ cause, outcome = .error cause ∧ fault = ⟨cause,span⟩ := by
  cases outcome <;> cases failed
  exact ⟨_,rfl,rfl⟩

theorem access_fails {α : Type} {accessor : String} {span : Span} {run : Access σ α} {state last : σ}
    {fault : Fault} (failed : access accessor span run state = .error fault last) :
    fault.cause.kind = .runtime ∧ fault.span = span := by
  unfold access at failed
  split at failed <;> cases failed
  exact ⟨rfl,rfl⟩

end Evaluation

namespace Step

-- The values wait on a stack, the latest first. A node takes those of its operands and leaves its own.
def perform (context : Option Object) (stack : List Value) : Step σ → Evaluation σ (List Value)
  | .context user =>
    match context with
    | some o => pure (.object o :: stack)
    | none => throw ⟨.noContextObject, user.span⟩
  | .type _ => pure (.unit :: stack)
  | .node e => do
    let value ← e.operate (stack.take e.arity).reverse
    pure (value :: stack.drop e.arity)

def performAll (context : Option Object) (steps : List (Step σ)) (stack : List Value) :
    Evaluation σ (List Value) :=
  steps.foldlM (perform context) stack

variable {context : Option Object}

theorem performAll_append (first second : List (Step σ)) (stack : List Value) :
    performAll context (first ++ second) stack =
      performAll context first stack >>= performAll context second :=
  List.foldlM_append

theorem performAll_singleton (step : Step σ) (stack : List Value) :
    performAll context [step] stack = step.perform context stack :=
  bind_pure _

theorem perform_node {e : Expr σ} {values : List Value} (all : values.length = e.arity)
    (stack : List Value) : perform context (values.reverse ++ stack) (.node e) =
      e.operate values >>= fun value => pure (value :: stack) := by
  have count : values.reverse.length = e.arity := by rw [List.length_reverse,all]
  rw [perform,List.take_left' count,List.drop_left' count,List.reverse_reverse]

end Step

namespace Expr

theorem operate_fails {e : Expr σ} {values : List Value} {state last : σ} {fault : Fault}
    (failed : e.operate values state = .error fault last) :
    fault.cause.kind = .runtime ∧ fault.span = e.span := by
  cases e with
  | literal => cases failed
  | unary op _ _ span =>
    obtain ⟨cause,undefined,rfl⟩ := Evaluation.ofExcept_fails failed
    exact ⟨UnaryOp.apply_runtime undefined,rfl⟩
  | binary op _ _ _ span =>
    obtain ⟨cause,undefined,rfl⟩ := Evaluation.ofExcept_fails failed
    exact ⟨op.apply_runtime _ _ cause undefined,rfl⟩
  | member => exact Evaluation.access_fails failed
  | call => exact Evaluation.access_fails failed
  | index => exact Evaluation.access_fails failed

end Expr

theorem Step.perform_fails {context : Option Object} {step : Step σ} {stack : List Value} {state last : σ}
    {fault : Fault} (failed : step.perform context stack state = .error fault last) :
    fault.cause.kind = .runtime ∧ fault.span = step.span := by
  cases step with
  | context user =>
    cases context with
    | some o => cases failed
    | none => cases failed; exact ⟨rfl,rfl⟩
  | type user => cases failed
  | node e =>
    rcases bind_fails.mp failed with failed | ⟨_,_,_,done⟩
    · exact Expr.operate_fails failed
    · cases done

namespace Expr

open Step

variable {context : Option Object}

theorem receiverSteps_run {receiver : Receiver (Expr σ)} (below : ∀ target, receiver = .value target →
      ∀ stack, performAll context target.steps stack =
        target.evaluate context >>= fun value => pure (value :: stack))
    (user : Expr σ) (stack : List Value) :
    performAll context (receiverSteps user receiver) stack =
      evaluateReceiver context user.span receiver >>= fun target => pure (target :: stack) := by
  cases receiver with
  | context =>
    rw [receiverSteps,performAll_singleton]
    cases context <;> rfl
  | type name => rfl
  | value target => exact below target rfl stack

theorem listSteps_run {args : List (Expr σ)} (below : ∀ arg ∈ args, ∀ stack,
      performAll context arg.steps stack =
        arg.evaluate context >>= fun value => pure (value :: stack)) (stack : List Value) :
    performAll context (listSteps args) stack =
      evaluateArgs context args >>= fun values => pure (values.reverse ++ stack) := by
  induction args generalizing stack with
  | nil => rfl
  | cons e es ih =>
    have others := ih fun arg present => below arg (List.mem_cons_of_mem _ present)
    rw [listSteps,performAll_append,below e List.mem_cons_self,evaluateArgs]
    simp only [bind_assoc,pure_bind,others,List.reverse_cons,List.append_assoc,List.singleton_append]

theorem evaluateArgs_length {args : List (Expr σ)} {state last : σ} {values : List Value}
    (evaluated : evaluateArgs context args state = .ok values last) : values.length = args.length := by
  induction args generalizing state values last with
  | nil =>
    obtain ⟨rfl,-⟩ := pure_succeeds.mp evaluated
    rfl
  | cons e es ih =>
    rw [evaluateArgs] at evaluated
    obtain ⟨value,middle,-,evaluated⟩ := bind_succeeds.mp evaluated
    obtain ⟨others,after,rest,evaluated⟩ := bind_succeeds.mp evaluated
    obtain ⟨rfl,-⟩ := pure_succeeds.mp evaluated
    rw [List.length_cons,List.length_cons,ih rest]

theorem access_run {receiver : Receiver (Expr σ)} {args : List (Expr σ)} {e : Expr σ}
    (below : ∀ target, receiver = .value target → ∀ stack, performAll context target.steps stack =
      target.evaluate context >>= fun value => pure (value :: stack))
    (arguments : ∀ arg ∈ args, ∀ stack, performAll context arg.steps stack =
      arg.evaluate context >>= fun value => pure (value :: stack))
    (taken : e.arity = args.length + 1) (stack : List Value) :
    performAll context (receiverSteps e receiver ++ listSteps args ++ [.node e]) stack =
      (do
        let target ← evaluateReceiver context e.span receiver
        let values ← evaluateArgs context args
        let value ← e.operate (target :: values)
        pure (value :: stack)) := by
  rw [performAll_append,performAll_append,receiverSteps_run below]
  simp only [bind_assoc,pure_bind,listSteps_run arguments,performAll_singleton]
  refine bind_congr fun target => ?_
  -- Only behind arguments that were evaluated is the number of their values known.
  funext state
  refine bind_congr_ok fun values last evaluated => ?_
  have all : (target :: values).length = e.arity := by
    rw [taken,List.length_cons,evaluateArgs_length evaluated]
  rw [← perform_node all,List.reverse_cons,List.append_assoc,List.singleton_append]

-- The steps of a tree leave its value on the stack and do all that its evaluation does.
theorem steps_run (e : Expr σ) (stack : List Value) :
    performAll context e.steps stack =
      e.evaluate context >>= fun value => pure (value :: stack) := by
  induction e using induction generalizing stack with
  | literal value span => rfl
  | unary op operand ty span below =>
    rw [steps,performAll_append,below,evaluate]
    simp only [bind_assoc,pure_bind,performAll_singleton]
    rfl
  | binary op left right ty span first second =>
    rw [steps,performAll_append,performAll_append,first,evaluate]
    simp only [bind_assoc,pure_bind,second,performAll_singleton]
    rfl
  | member receiver m span below =>
    rw [steps,performAll_append,receiverSteps_run below,evaluate]
    simp only [bind_assoc,pure_bind,performAll_singleton]
    rfl
  | call receiver m args span below arguments =>
    rw [steps,access_run below arguments rfl,evaluate]
    simp only [bind_assoc]
    rfl
  | index receiver ix args span below arguments =>
    rw [steps,access_run below arguments rfl,evaluate]
    simp only [bind_assoc]
    rfl

end Expr
end TypedFormula
