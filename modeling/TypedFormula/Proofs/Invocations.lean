import TypedFormula.Proofs.EvaluationSteps

namespace TypedFormula

variable {σ : Type}

-- A run of the accessor of a node, with the host's state before and after it.
structure Invocation (σ : Type) where
  node : Expr σ
  before : σ
  after : σ

abbrev Recorded (σ : Type) := σ × List (Invocation σ)

namespace Recorded

def finalState {ε α : Type} : EStateM.Result ε σ α → σ
  | .ok _ state => state
  | .error _ state => state

def noted {ε α : Type} (calls : List (Invocation σ)) :
    EStateM.Result ε σ α → EStateM.Result ε (Recorded σ) α
  | .ok a state => .ok a (state,calls)
  | .error e state => .error e (state,calls)

-- Each invocation happens in the state that the one before it has left, and nothing else changes it.
def Chained : σ → List (Invocation σ) → σ → Prop
  | first, [], last => first = last
  | first, call :: calls, last => call.before = first ∧ Chained call.after calls last

theorem Chained.append {calls more : List (Invocation σ)} {first middle last : σ}
    (one : Chained first calls middle) (two : Chained middle more last) :
    Chained first (calls ++ more) last := by
  induction calls generalizing first with
  | nil => cases one; exact two
  | cons call calls ih => exact ⟨one.1,ih one.2⟩

end Recorded

open Recorded

def Access.recorded (node : Expr σ) (run : Access σ Value) : Access (Recorded σ) Value :=
  fun (state,calls) => noted (calls ++ [⟨node,state,finalState (run state)⟩]) (run state)

namespace Expr

def isAccess (e : Expr σ) : Bool := e.receiver?.isSome

mutual

def recorded : Expr σ → Expr (Recorded σ)
  | .literal value span => .literal value span
  | .unary op operand ty span => .unary op operand.recorded ty span
  | .binary op left right ty span => .binary op left.recorded right.recorded ty span
  | .member receiver m span =>
    .member (receiverRecorded receiver)
      { m with get := fun target => (m.get target).recorded (.member receiver m span) } span
  | .call receiver m args span =>
    .call (receiverRecorded receiver)
      { m with invoke := fun target values =>
        (m.invoke target values).recorded (.call receiver m args span) } (listRecorded args) span
  | .index receiver ix args span =>
    .index (receiverRecorded receiver)
      { ix with get := fun target values =>
        (ix.get target values).recorded (.index receiver ix args span) } (listRecorded args) span

def receiverRecorded : Receiver (Expr σ) → Receiver (Expr (Recorded σ))
  | .context => .context
  | .type name => .type name
  | .value target => .value target.recorded

def listRecorded : List (Expr σ) → List (Expr (Recorded σ))
  | [] => []
  | e :: es => e.recorded :: listRecorded es

end

def invocations (e : Expr σ) (before after : σ) : List (Invocation σ) :=
  if e.isAccess then [⟨e,before,after⟩] else []

end Expr

namespace Step

def recorded : Step σ → Step (Recorded σ)
  | .context user => .context user.recorded
  | .type user => .type user.recorded
  | .node e => .node e.recorded

def invocations : Step σ → σ → σ → List (Invocation σ)
  | .node e, before, after => e.invocations before after
  | _, _, _ => []

def accessed? (step : Step σ) : Option (Expr σ) := step.node?.filter Expr.isAccess

end Step

namespace Expr

theorem length_listRecorded (args : List (Expr σ)) : (listRecorded args).length = args.length := by
  induction args with
  | nil => rfl
  | cons e es ih => simp [listRecorded,ih]

theorem arity_recorded (e : Expr σ) : e.recorded.arity = e.arity := by
  cases e <;> simp [recorded,arity,length_listRecorded]

theorem span_recorded (e : Expr σ) : e.recorded.span = e.span := by
  cases e <;> rfl

theorem receiverSteps_recorded {receiver : Receiver (Expr σ)}
    (below : ∀ target, receiver = .value target → target.recorded.steps = target.steps.map Step.recorded)
    (user : Expr σ) : receiverSteps user.recorded (receiverRecorded receiver) =
      (receiverSteps user receiver).map Step.recorded := by
  cases receiver with
  | context => rfl
  | type name => rfl
  | value target => exact below target rfl

theorem listSteps_recorded {args : List (Expr σ)}
    (below : ∀ arg ∈ args, arg.recorded.steps = arg.steps.map Step.recorded) :
    listSteps (listRecorded args) = (listSteps args).map Step.recorded := by
  induction args with
  | nil => rfl
  | cons e es ih =>
    have others := ih fun arg present => below arg (List.mem_cons_of_mem _ present)
    rw [listRecorded,listSteps,listSteps,List.map_append,below e List.mem_cons_self,others]

theorem steps_recorded (e : Expr σ) : e.recorded.steps = e.steps.map Step.recorded := by
  induction e using induction with
  | literal value span => rfl
  | unary op operand ty span below => simp [recorded,steps,below,Step.recorded]
  | binary op left right ty span first second => simp [recorded,steps,first,second,Step.recorded]
  | member receiver m span below =>
    have received := receiverSteps_recorded below (.member receiver m span)
    simp only [recorded] at received
    simp [recorded,steps,received,Step.recorded]
  | call receiver m args span below arguments =>
    have received := receiverSteps_recorded below (.call receiver m args span)
    simp only [recorded] at received
    simp [recorded,steps,received,listSteps_recorded arguments,Step.recorded]
  | index receiver ix args span below arguments =>
    have received := receiverSteps_recorded below (.index receiver ix args span)
    simp only [recorded] at received
    simp [recorded,steps,received,listSteps_recorded arguments,Step.recorded]

theorem access_recorded (node : Expr σ) (accessor : String) (span : Span) (run : Access σ Value) (state : σ)
    (calls : List (Invocation σ)) :
    Evaluation.access accessor span (run.recorded node) (state,calls) =
      noted (calls ++ [⟨node,state,finalState (Evaluation.access accessor span run state)⟩])
        (Evaluation.access accessor span run state) := by
  unfold Evaluation.access Access.recorded
  dsimp only
  cases run state <;> rfl

theorem ofExcept_recorded {α : Type} (span : Span) (outcome : Except Cause α) (state : σ)
    (calls : List (Invocation σ)) :
    Evaluation.ofExcept span outcome (state,calls) =
      noted calls (Evaluation.ofExcept span outcome state) := by
  cases outcome <;> rfl

theorem finalState_ofExcept {α : Type} (span : Span) (outcome : Except Cause α) (state : σ) :
    finalState (Evaluation.ofExcept span outcome state) = state := by
  cases outcome <;> rfl

theorem operate_recorded (e : Expr σ) (values : List Value) (state : σ) (calls : List (Invocation σ)) :
    e.recorded.operate values (state,calls) =
      noted (calls ++ e.invocations state (finalState (e.operate values state)))
        (e.operate values state) := by
  cases e with
  | literal => simp [invocations,isAccess,receiver?]; rfl
  | unary => simp [recorded,operate,ofExcept_recorded,invocations,isAccess,receiver?]
  | binary => simp [recorded,operate,ofExcept_recorded,invocations,isAccess,receiver?]
  | member => exact access_recorded _ _ _ _ _ _
  | call => exact access_recorded _ _ _ _ _ _
  | index => exact access_recorded _ _ _ _ _ _

theorem operate_keeps {e : Expr σ} (none : e.isAccess = false) (values : List Value) (state : σ) :
    finalState (e.operate values state) = state := by
  cases e with
  | literal => rfl
  | unary => exact finalState_ofExcept _ _ _
  | binary => exact finalState_ofExcept _ _ _
  | member | call | index => cases none

theorem invocations_chained (e : Expr σ) (values : List Value) (state : σ) :
    Chained state (e.invocations state (finalState (e.operate values state)))
      (finalState (e.operate values state)) := by
  cases access : e.isAccess with
  | true => simp [invocations,access,Chained]
  | false => simpa [invocations,access,Chained] using (operate_keeps access values state).symm

theorem invocations_nodes (e : Expr σ) (before after : σ) :
    (e.invocations before after).map (·.node) = ((some e).filter isAccess).toList := by
  cases access : e.isAccess <;> simp [invocations,access,Option.filter]

end Expr

namespace Step

def accesses (steps : List (Step σ)) : List (Expr σ) := steps.filterMap accessed?

theorem accesses_steps (e : Expr σ) : accesses e.steps = e.postorder.filter Expr.isAccess := by
  rw [accesses,Expr.postorder,List.filter_filterMap]
  exact List.filterMap_congr fun step _ => rfl

theorem perform_recorded (context : Option Object) (step : Step σ) (stack : List Value) (state : σ) (calls : List (Invocation σ)) :
    step.recorded.perform context stack (state,calls) =
      noted (calls ++ step.invocations state (finalState (step.perform context stack state)))
        (step.perform context stack state) := by
  cases step with
  | context user => cases context <;> simp [recorded,perform,invocations,Expr.span_recorded] <;> rfl
  | type user => simp [recorded,perform,invocations]; rfl
  | node e =>
    simp only [recorded,perform,invocations,Expr.arity_recorded,bind_run,Expr.operate_recorded]
    cases e.operate (stack.take e.arity).reverse state <;> rfl

theorem invocations_chained (context : Option Object) (step : Step σ) (stack : List Value) (state : σ) :
    Chained state (step.invocations state (finalState (step.perform context stack state)))
      (finalState (step.perform context stack state)) := by
  cases step with
  | context user => cases context <;> exact rfl
  | type user => exact rfl
  | node e =>
    have chained := e.invocations_chained (stack.take e.arity).reverse state
    simp only [perform,invocations,bind_run]
    cases ran : e.operate (stack.take e.arity).reverse state <;> rw [ran] at chained <;> exact chained

theorem invocations_nodes (step : Step σ) (before after : σ) :
    (step.invocations before after).map (·.node) = accesses [step] := by
  cases step with
  | context user => rfl
  | type user => rfl
  | node e =>
    rw [invocations,Expr.invocations_nodes]
    unfold accesses
    rw [List.filterMap_cons,accessed?,node?]
    cases (some e).filter Expr.isAccess <;> rfl

variable {context : Option Object}

-- Steps that all succeed write down one chain of invocations, one for each access among them.
theorem performAll_recorded {steps : List (Step σ)} {stack values : List Value} {state last : σ}
    (ran : performAll context steps stack state = .ok values last) (calls : List (Invocation σ)) :
    ∃ made, performAll context (steps.map recorded) stack (state,calls) = .ok values (last,calls ++ made) ∧
      Chained state made last ∧ made.map (·.node) = accesses steps := by
  induction steps generalizing stack state calls with
  | nil =>
    obtain ⟨rfl,rfl⟩ := pure_succeeds.mp ran
    exact ⟨[],by rw [List.append_nil]; rfl,rfl,rfl⟩
  | cons step steps ih =>
    obtain ⟨others,middle,first,rest⟩ := bind_succeeds.mp ran
    have chained := step.invocations_chained context stack state
    have wrote := step.perform_recorded context stack state calls
    rw [first] at chained wrote
    obtain ⟨made,later,chain,nodes⟩ := ih rest (calls ++ step.invocations state middle)
    refine ⟨step.invocations state middle ++ made,?_,chained.append chain,?_⟩
    · rw [← List.append_assoc]
      exact bind_succeeds.mpr ⟨others,_,wrote,later⟩
    · rw [List.map_append,invocations_nodes,nodes]
      exact (List.filterMap_append (l := [step])).symm

def StopsAt (context : Option Object) (state : σ) (done : List (Step σ)) (step : Step σ) (fault : Fault)
    (last : σ) : Prop :=
  ∃ stack middle, performAll context done [] state = .ok stack middle ∧
    step.perform context stack middle = .error fault last

theorem performAll_fails_iff {steps : List (Step σ)} {stack : List Value} {state last : σ} {fault : Fault} :
    performAll context steps stack state = .error fault last ↔
      ∃ done step rest, steps = done ++ step :: rest ∧ ∃ values middle,
        performAll context done stack state = .ok values middle ∧
          step.perform context values middle = .error fault last := by
  constructor
  · intro failed
    induction steps generalizing stack state with
    | nil => exact (pure_fails.mp failed).elim
    | cons step steps ih =>
      rcases bind_fails.mp failed with here | ⟨values,middle,first,later⟩
      · exact ⟨[],step,steps,rfl,stack,state,rfl,here⟩
      · obtain ⟨done,other,rest,rfl,last,after,ran,fails⟩ := ih later
        exact ⟨step :: done,other,rest,rfl,last,after,bind_succeeds.mpr ⟨values,middle,first,ran⟩,fails⟩
  · rintro ⟨done,step,rest,rfl,values,middle,ran,fails⟩
    rw [performAll_append]
    exact bind_fails.mpr (.inr ⟨values,middle,ran,bind_fails.mpr (.inl fails)⟩)

theorem stopsAt_recorded {state last : σ} {done : List (Step σ)} {step : Step σ} {fault : Fault}
    (stops : StopsAt context state done step fault last) :
    ∃ calls, StopsAt context (state,[]) (done.map recorded) step.recorded fault (last,calls) ∧
      Chained state calls last ∧ calls.map (·.node) = accesses (done ++ [step]) := by
  obtain ⟨stack,middle,ran,fails⟩ := stops
  obtain ⟨made,later,chain,nodes⟩ := performAll_recorded ran []
  have chained := step.invocations_chained context stack middle
  have wrote := step.perform_recorded context stack middle made
  rw [fails] at chained wrote
  refine ⟨made ++ step.invocations middle last,⟨stack,(middle,made),later,wrote⟩,chain.append chained,?_⟩
  rw [List.map_append,invocations_nodes,nodes]
  exact List.filterMap_append.symm

end Step

namespace CompiledFormula

def recorded (f : CompiledFormula σ) : CompiledFormula (Recorded σ) := ⟨f.expr.recorded,f.context⟩

-- All steps succeed, and the last of them, the root, yields the value.
def Completes (f : CompiledFormula σ) (state : σ) (value : Value) (last : σ) : Prop :=
  ∃ done stack middle, f.expr.steps = done ++ [.node f.expr] ∧
    Step.performAll f.context done [] state = .ok stack middle ∧
    (Step.node f.expr).perform f.context stack middle = .ok [value] last

-- The first step that fails is `step`, behind those that are done.
def Stops (f : CompiledFormula σ) (state : σ) (done : List (Step σ)) (step : Step σ) (fault : Fault)
    (last : σ) : Prop :=
  (∃ rest, f.expr.steps = done ++ step :: rest) ∧ Step.StopsAt f.context state done step fault last

variable {f : CompiledFormula σ} {state last : σ} {value : Value} {fault : Fault}

theorem evaluate_ok_iff : f.evaluate state = .ok value last ↔
    Step.performAll f.context f.expr.steps [] state = .ok [value] last := by
  rw [Expr.steps_run,bind_succeeds]
  constructor
  · intro ran; exact ⟨value,last,ran,rfl⟩
  · rintro ⟨_,_,ran,same⟩; cases same; exact ran

theorem evaluate_error_iff : f.evaluate state = .error fault last ↔
    Step.performAll f.context f.expr.steps [] state = .error fault last := by
  rw [Expr.steps_run,bind_fails]
  constructor
  · intro failed; exact .inl failed
  · rintro (failed | ⟨_,_,_,done⟩)
    · exact failed
    · cases done

theorem completes_iff : f.evaluate state = .ok value last ↔ f.Completes state value last := by
  rw [evaluate_ok_iff]
  constructor
  · intro ran
    obtain ⟨done,shape⟩ := f.expr.steps_root
    rw [shape,Step.performAll_append] at ran
    obtain ⟨stack,middle,before,root⟩ := bind_succeeds.mp ran
    rw [Step.performAll_singleton] at root
    exact ⟨done,stack,middle,shape,before,root⟩
  · rintro ⟨done,stack,middle,shape,before,root⟩
    rw [shape,Step.performAll_append]
    exact bind_succeeds.mpr ⟨stack,middle,before,by rw [Step.performAll_singleton]; exact root⟩

theorem stops_iff : f.evaluate state = .error fault last ↔
    ∃ done step, f.Stops state done step fault last := by
  rw [evaluate_error_iff,Step.performAll_fails_iff]
  constructor
  · rintro ⟨done,step,rest,shape,stops⟩; exact ⟨done,step,⟨rest,shape⟩,stops⟩
  · rintro ⟨done,step,⟨rest,shape⟩,stops⟩; exact ⟨done,step,rest,shape,stops⟩

theorem completes_recorded (ran : f.evaluate state = .ok value last) :
    ∃ calls, f.recorded.evaluate (state,[]) = .ok value (last,calls) ∧ Chained state calls last ∧
      calls.map (·.node) = f.expr.postorder.filter Expr.isAccess := by
  obtain ⟨calls,wrote,chain,nodes⟩ := Step.performAll_recorded (evaluate_ok_iff.mp ran) []
  refine ⟨calls,evaluate_ok_iff.mpr ?_,chain,nodes.trans (Step.accesses_steps _)⟩
  rw [recorded,Expr.steps_recorded]
  exact wrote

theorem stops_recorded {done : List (Step σ)} {step : Step σ} (stops : f.Stops state done step fault last) :
    ∃ calls, f.recorded.evaluate (state,[]) = .error fault (last,calls) ∧ Chained state calls last ∧
      calls.map (·.node) = Step.accesses (done ++ [step]) := by
  obtain ⟨⟨rest,shape⟩,fails⟩ := stops
  obtain ⟨calls,wrote,chain,nodes⟩ := Step.stopsAt_recorded fails
  have same : f.recorded.expr.steps = done.map Step.recorded ++ step.recorded :: rest.map Step.recorded := by
    rw [recorded,Expr.steps_recorded,shape,List.map_append,List.map_cons]
  exact ⟨calls,stops_iff.mpr ⟨_,_,⟨_,same⟩,wrote⟩,chain,nodes⟩

-- The node that a failing step is blamed on: the step carries it out, or it lacks the context object.
def Blamed (f : CompiledFormula σ) (node : Expr σ) (step : Step σ) (fault : Fault) : Prop :=
  node ∈ f.expr.nodes ∧ fault.span = node.span ∧ fault.cause.kind = .runtime ∧
    (step = .node node ∨ step = .context node ∧ node.receiver? = some .context ∧ f.context = none ∧
      fault.cause = .noContextObject)

theorem stops_blamed {done : List (Step σ)} {step : Step σ} (stops : f.Stops state done step fault last) :
    ∃ node, f.Blamed node step fault := by
  obtain ⟨⟨rest,shape⟩,stack,middle,-,fails⟩ := stops
  have present : step ∈ f.expr.steps := by rw [shape]; exact List.mem_append_right _ List.mem_cons_self
  have within := f.expr.steps_within step present
  obtain ⟨runtime,place⟩ := Step.perform_fails fails
  cases step with
  | context user =>
    cases missing : f.context with
    | some o => rw [missing] at fails; cases fails
    | none =>
      rw [missing] at fails
      cases fails
      exact ⟨user,within.1,place,runtime,.inr ⟨rfl,within.2,missing,rfl⟩⟩
  | type user => cases fails
  | node e => exact ⟨e,within,place,runtime,.inl rfl⟩

-- An evaluation carries out the steps of its formula one by one, and succeeds exactly if all of them do.
-- The accessors that it invokes are those of the steps, each invoked once and in the state that the one
-- before it has left, up to the first step that fails, whose node the failure is blamed on.
theorem evaluates_in_order (f : CompiledFormula σ) (state : σ) :
    f.expr.postorder.Perm f.expr.nodes ∧ ∃ calls : List (Invocation σ),
      f.recorded.evaluate (state,[]) = noted calls (f.evaluate state) ∧
      Chained state calls (finalState (f.evaluate state)) ∧
      (∀ value last, f.evaluate state = .ok value last ↔ f.Completes state value last) ∧
      (∀ fault last, f.evaluate state = .error fault last ↔ ∃ done step, f.Stops state done step fault last) ∧
      (∀ value last, f.Completes state value last →
        calls.map (·.node) = f.expr.postorder.filter Expr.isAccess) ∧
      ∀ done step fault last, f.Stops state done step fault last →
        calls.map (·.node) = Step.accesses (done ++ [step]) ∧ ∃ node, f.Blamed node step fault := by
  refine ⟨f.expr.postorder_perm,?_⟩
  cases ran : f.evaluate state with
  | ok value last =>
    obtain ⟨calls,wrote,chain,nodes⟩ := completes_recorded ran
    refine ⟨calls,wrote,chain,?_,?_,fun _ _ _ => nodes,?_⟩
    · intro other after; rw [← ran]; exact completes_iff
    · intro fault after; rw [← ran]; exact stops_iff
    · intro done step fault after stops
      have failed := stops_iff.mpr ⟨done,step,stops⟩
      rw [ran] at failed
      cases failed
  | error fault last =>
    obtain ⟨done,step,stops⟩ := stops_iff.mp ran
    obtain ⟨calls,wrote,chain,nodes⟩ := stops_recorded stops
    refine ⟨calls,wrote,chain,?_,?_,?_,?_⟩
    · intro other after; rw [← ran]; exact completes_iff
    · intro fault after; rw [← ran]; exact stops_iff
    · intro value after completes
      have succeeded := completes_iff.mpr completes
      rw [ran] at succeeded
      cases succeeded
    · intro done step fault after stops
      -- The same run cannot write down anything else.
      obtain ⟨others,again,-,others_nodes⟩ := stops_recorded stops
      rw [wrote] at again
      cases again
      exact ⟨others_nodes,stops_blamed stops⟩

end CompiledFormula
end TypedFormula
