import TypedFormula.Engine
import TypedFormula.Proofs.BuiltinConformity
import TypedFormula.Proofs.WellBound
import TypedFormula.Proofs.WholeFormulas

namespace TypedFormula

-- Operands of the right types for which an operator has no result, and the reason.
inductive BinaryOp.Fails : BinaryOp → Value → Value → Cause → Prop where
  | intByZero {a : Int32} : Fails .divide (.int a) (.int 0) .divisionByZero
  | decimalByZero {a b : Decimal} (zero : b.isZero = true) :
      Fails .divide (.decimal a) (.decimal b) .divisionByZero
  | leastByMinusOne : Fails .divide (.int leastInt) (.int (-1)) .integerOverflow
  | sum {a b : Decimal} (overflow : a.add b = none) :
      Fails .add (.decimal a) (.decimal b) (.decimalOverflow .add)
  | difference {a b : Decimal} (overflow : a.sub b = none) :
      Fails .subtract (.decimal a) (.decimal b) (.decimalOverflow .subtract)
  | product {a b : Decimal} (overflow : a.mul b = none) :
      Fails .multiply (.decimal a) (.decimal b) (.decimalOverflow .multiply)
  | quotient {a b : Decimal} (nonzero : b.isZero = false) (overflow : a.div b = none) :
      Fails .divide (.decimal a) (.decimal b) (.decimalOverflow .divide)

theorem UnaryOp.apply_sound {op : UnaryOp} {value : Value} {ty : Ty}
    (typed : op.resultType value.ty = some ty) : ∃ result, op.apply value = .ok result ∧ result.ty = ty := by
  cases op <;> cases value <;> cases typed <;> exact ⟨_,rfl,rfl⟩

namespace BinaryOp

def tests : BinaryOp → Bool
  | .equal | .notEqual | .less | .lessEqual | .greater | .greaterEqual => true
  | _ => false

variable {op : BinaryOp} {ty : Ty}

-- The result of an operator is of this type, or there is a reason why there is none.
def Settled (op : BinaryOp) (a b : Value) (ty : Ty) (outcome : Except Cause Value) : Prop :=
  (∃ result, outcome = .ok result ∧ result.ty = ty) ∨ ∃ cause, outcome = .error cause ∧ op.Fails a b cause

theorem decimalResult_settled {a b : Decimal} {result : Option Decimal}
    (reason : result = none → op.Fails (.decimal a) (.decimal b) (.decimalOverflow op)) :
    Settled op (.decimal a) (.decimal b) .decimal (decimalResult op result) := by
  cases result with
  | none => exact .inr ⟨_,rfl,reason rfl⟩
  | some d => exact .inl ⟨_,rfl,rfl⟩

theorem applyInt_settled (a b : Int32) (typed : op.resultFor .int = some ty) (noTest : op.tests = false) :
    Settled op (.int a) (.int b) ty (op.applyInt a b) := by
  cases op
  all_goals
    cases typed
    try exact .inl ⟨_,rfl,rfl⟩
    try cases noTest
  unfold applyInt
  dsimp only
  split
  · rename_i zero
    subst zero
    exact .inr ⟨_,rfl,.intByZero⟩
  split
  · rename_i extreme
    obtain ⟨rfl,rfl⟩ := extreme
    exact .inr ⟨_,rfl,.leastByMinusOne⟩
  · exact .inl ⟨_,rfl,rfl⟩

theorem applyDecimal_settled (a b : Decimal) (typed : op.resultFor .decimal = some ty)
    (noTest : op.tests = false) : Settled op (.decimal a) (.decimal b) ty (op.applyDecimal a b) := by
  cases op
  all_goals
    cases typed
    try cases noTest
  case add => exact decimalResult_settled .sum
  case subtract => exact decimalResult_settled .difference
  case multiply => exact decimalResult_settled .product
  unfold applyDecimal
  dsimp only
  split
  · rename_i zero
    exact .inr ⟨_,rfl,.decimalByZero zero⟩
  · rename_i nonzero
    exact decimalResult_settled fun none => .quotient (Bool.eq_false_iff.mpr nonzero) none

theorem combine_settled {a b : Value} (same : a.ty = b.ty) (typed : op.resultFor a.ty = some ty)
    (noTest : op.tests = false) : Settled op a b ty (combine op a b) := by
  cases a with
  | unit => cases op <;> cases typed
  | text s => cases op <;> cases typed <;> cases noTest
  | object o => cases op <;> cases typed <;> cases noTest
  | int a => cases b <;> cases same; exact applyInt_settled _ _ typed noTest
  | decimal a => cases b <;> cases same; exact applyDecimal_settled _ _ typed noTest
  | bool a =>
    cases b <;> cases same
    cases op <;> cases typed <;> cases noTest <;> exact .inl ⟨_,rfl,rfl⟩
  | float a =>
    cases b <;> cases same
    cases op <;> cases typed <;> cases noTest <;> exact .inl ⟨_,rfl,rfl⟩
  | double a =>
    cases b <;> cases same
    cases op <;> cases typed <;> cases noTest <;> exact .inl ⟨_,rfl,rfl⟩

theorem bool_of_tests {operand : Ty} (test : op.tests = true) (typed : op.resultFor operand = some ty) :
    ty = .bool := by
  unfold resultFor at typed
  cases op <;> cases test
  all_goals
    dsimp only at typed
    split at typed <;> cases typed
    rfl

theorem apply_settled {a b : Value} (typed : op.resultType a.ty b.ty = some ty) :
    Settled op a b ty (op.apply a b) := by
  have same := eq_of_resultType typed
  rw [resultType,if_pos same] at typed
  cases kind : op.tests with
  | false =>
    have combined : op.apply a b = combine op a b := by cases op <;> first | rfl | cases kind
    rw [combined]
    exact combine_settled same typed kind
  | true =>
    have result : ∃ holds, op.apply a b = .ok (.bool holds) := by
      cases op
      all_goals
        first | exact ⟨_,rfl⟩ | exact ⟨_,if_pos same⟩ | cases kind
    obtain ⟨holds,result⟩ := result
    exact .inl ⟨_,result,(bool_of_tests kind typed).symm⟩

end BinaryOp

variable {σ : Type}

namespace Expr

-- Evaluating a tree from a state comes to one of its nodes in another state, behind trees that have values.
inductive Reaches (context : Option Object) : Expr σ → σ → Expr σ → σ → Prop where
  | root {e : Expr σ} {state : σ} : Reaches context e state e state
  | inside {e child node : Expr σ} {before behind : List (Expr σ)} {values : List Value} {state middle entry : σ}
      (split : e.children = before ++ child :: behind) (supplied : e.receiver? = some .context → context ≠ none)
      (earlier : evaluateArgs context before state = .ok values middle)
      (further : Reaches context child middle node entry) : Reaches context e state node entry

-- An evaluation that has come to a node fails there: its accessor does, with the receiver and the arguments
-- that the parts below give, or its operator has no result for its operands.
def Blames (context : Option Object) : Expr σ → σ → Fault → σ → Prop
  | .binary op left right _ span, entry, fault, last => fault.span = span ∧ ∃ middle a b,
      left.evaluate context entry = .ok a middle ∧ right.evaluate context middle = .ok b last ∧
      op.Fails a b fault.cause
  | .member receiver m span, entry, fault, last => ∃ middle target e,
      evaluateReceiver context span receiver entry = .ok target middle ∧
      m.get target middle = .error e last ∧ fault = ⟨.hostFailure m.name e.message,span⟩
  | .call receiver m args span, entry, fault, last => ∃ middle later target values e,
      evaluateReceiver context span receiver entry = .ok target middle ∧
      evaluateArgs context args middle = .ok values later ∧
      m.invoke target values later = .error e last ∧ fault = ⟨.hostFailure m.name e.message,span⟩
  | .index receiver ix args span, entry, fault, last => ∃ middle later target values e,
      evaluateReceiver context span receiver entry = .ok target middle ∧
      evaluateArgs context args middle = .ok values later ∧
      ix.get target values later = .error e last ∧ fault = ⟨.hostFailure "indexer" e.message,span⟩
  | _, _, _, _ => False

def Fails (context : Option Object) (e : Expr σ) (state : σ) (fault : Fault) (last : σ) : Prop :=
  ∃ node entry, e.Reaches context state node entry ∧ node.Blames context entry fault last

-- The first of the trees that has no value fails.
def FailsAmong (context : Option Object) (es : List (Expr σ)) (state : σ) (fault : Fault) (last : σ) : Prop :=
  ∃ before e behind values middle, es = before ++ e :: behind ∧
    evaluateArgs context before state = .ok values middle ∧ e.Fails context middle fault last

def Sound (context : Option Object) (e : Expr σ) (state : σ) : EStateM.Result Fault σ Value → Prop
  | .ok value _ => value.ty = e.ty
  | .error fault last => e.Fails context state fault last

end Expr

-- The context object that an evaluation gets is of the type that names were bound for.
def Scope.Suits (scope : Scope σ) (context : Option Object) : Prop :=
  ∀ typeName, scope.context = some typeName → ∃ o, context = some o ∧ o.typeName = typeName

namespace Soundness

variable {scope : Scope σ} {context : Option Object}

theorem mem_nodes_of_reaches {e node : Expr σ} {state entry : σ} (reaches : e.Reaches context state node entry) :
    node ∈ e.nodes := by
  induction reaches with
  | root =>
    rw [Expr.nodes_eq]
    exact List.mem_cons_self
  | @inside e child node before behind values state middle entry split supplied earlier further ih =>
    have isChild : child ∈ e.children := by rw [split]; exact List.mem_append_right _ List.mem_cons_self
    rw [Expr.nodes_eq]
    exact List.mem_cons_of_mem _ (List.mem_flatMap.mpr ⟨child,isChild,ih⟩)

theorem evaluateArgs_append {first second : List (Expr σ)} {values others : List Value} {state middle last : σ}
    (earlier : Expr.evaluateArgs context first state = .ok values middle)
    (later : Expr.evaluateArgs context second middle = .ok others last) :
    Expr.evaluateArgs context (first ++ second) state = .ok (values ++ others) last := by
  induction first generalizing values state with
  | nil =>
    obtain ⟨rfl,rfl⟩ := pure_succeeds.mp earlier
    exact later
  | cons e es ih =>
    rw [Expr.evaluateArgs] at earlier
    obtain ⟨value,after,one,earlier⟩ := bind_succeeds.mp earlier
    obtain ⟨more,_,rest,earlier⟩ := bind_succeeds.mp earlier
    obtain ⟨rfl,rfl⟩ := pure_succeeds.mp earlier
    rw [List.cons_append,Expr.evaluateArgs]
    exact bind_succeeds.mpr ⟨value,after,one,bind_succeeds.mpr ⟨_,_,ih rest,rfl⟩⟩

theorem fails_root {e : Expr σ} {state last : σ} {fault : Fault} (blames : e.Blames context state fault last) :
    e.Fails context state fault last := ⟨e,state,.root,blames⟩

theorem fails_among {e : Expr σ} {state last : σ} {fault : Fault}
    (supplied : e.receiver? = some .context → context ≠ none)
    (below : Expr.FailsAmong context e.children state fault last) : e.Fails context state fault last := by
  obtain ⟨before,child,behind,values,middle,split,earlier,node,entry,reaches,blames⟩ := below
  exact ⟨node,entry,.inside split supplied earlier reaches,blames⟩

theorem fails_operands {e : Expr σ} {state last : σ} {fault : Fault} (operates : e.receiver? = none)
    (below : Expr.FailsAmong context e.children state fault last) : e.Fails context state fault last := by
  refine fails_among (fun follows => ?_) below
  cases operates.symm.trans follows

theorem failsAmong_first {e : Expr σ} {es : List (Expr σ)} {state last : σ} {fault : Fault}
    (fails : e.Fails context state fault last) : Expr.FailsAmong context (e :: es) state fault last :=
  ⟨[],e,es,[],state,rfl,rfl,fails⟩

theorem failsAmong_left {es : List (Expr σ)} {state last : σ} {fault : Fault} (more : List (Expr σ))
    (fails : Expr.FailsAmong context es state fault last) :
    Expr.FailsAmong context (es ++ more) state fault last := by
  obtain ⟨before,e,behind,values,middle,rfl,earlier,fails⟩ := fails
  exact ⟨before,e,behind ++ more,values,middle,List.append_assoc _ _ _,earlier,fails⟩

theorem failsAmong_right {done es : List (Expr σ)} {values : List Value} {state middle last : σ} {fault : Fault}
    (earlier : Expr.evaluateArgs context done state = .ok values middle)
    (fails : Expr.FailsAmong context es middle fault last) :
    Expr.FailsAmong context (done ++ es) state fault last := by
  obtain ⟨before,e,behind,others,after,rfl,later,fails⟩ := fails
  exact ⟨done ++ before,e,behind,_,after,(List.append_assoc _ _ _).symm,evaluateArgs_append earlier later,fails⟩

theorem evaluateArgs_singleton {e : Expr σ} {value : Value} {state last : σ}
    (evaluated : e.evaluate context state = .ok value last) :
    Expr.evaluateArgs context [e] state = .ok [value] last := by
  rw [Expr.evaluateArgs]
  exact bind_succeeds.mpr ⟨value,last,evaluated,rfl⟩

theorem evaluateArgs_receiver {receiver : Receiver (Expr σ)} {span : Span} {target : Value} {state middle : σ}
    (evaluated : Expr.evaluateReceiver context span receiver state = .ok target middle) :
    ∃ values, Expr.evaluateArgs context receiver.target?.toList state = .ok values middle := by
  cases receiver with
  | context =>
    cases context with
    | none => cases evaluated
    | some o => cases evaluated; exact ⟨[],rfl⟩
  | type name => cases evaluated; exact ⟨[],rfl⟩
  | value e => exact ⟨_,evaluateArgs_singleton evaluated⟩

theorem supplied_of_suits {receiver : Receiver (Expr σ)} {info : TypeInfo σ} (suits : scope.Suits context)
    (provided : scope.provider? receiver = some info) : some receiver = some .context → context ≠ none := by
  rintro ⟨⟩
  obtain ⟨typeName,bound,_⟩ := Option.bind_eq_some_iff.mp provided
  obtain ⟨o,rfl,_⟩ := suits typeName bound
  exact Option.some_ne_none o

theorem evaluate_unary {op : UnaryOp} {operand : Expr σ} {ty : Ty} {span : Span}
    (typed : op.resultType operand.ty = some ty)
    (sound : ∀ state, operand.Sound context state (operand.evaluate context state)) (state : σ) :
    (Expr.unary op operand ty span).Sound context state
      ((Expr.unary op operand ty span).evaluate context state) := by
  rw [Expr.evaluate,bind_run]
  have here := sound state
  cases ran : operand.evaluate context state with
  | error fault middle =>
    rw [ran] at here
    exact fails_operands rfl (failsAmong_first here)
  | ok value middle =>
    rw [ran] at here
    have fits : op.resultType value.ty = some ty := by rw [here]; exact typed
    obtain ⟨result,applied,isTy⟩ := UnaryOp.apply_sound fits
    dsimp only
    rw [applied]
    exact isTy

theorem evaluate_binary {op : BinaryOp} {left right : Expr σ} {ty : Ty} {span : Span}
    (typed : op.resultType left.ty right.ty = some ty)
    (first : ∀ state, left.Sound context state (left.evaluate context state))
    (second : ∀ state, right.Sound context state (right.evaluate context state)) (state : σ) :
    (Expr.binary op left right ty span).Sound context state
      ((Expr.binary op left right ty span).evaluate context state) := by
  rw [Expr.evaluate,bind_run]
  have one := first state
  cases ranLeft : left.evaluate context state with
  | error fault middle =>
    rw [ranLeft] at one
    exact fails_operands rfl (failsAmong_first one)
  | ok a middle =>
    rw [ranLeft] at one
    dsimp only
    rw [bind_run]
    have two := second middle
    cases ranRight : right.evaluate context middle with
    | error fault last =>
      rw [ranRight] at two
      exact fails_operands rfl (failsAmong_right (evaluateArgs_singleton ranLeft) (failsAmong_first two))
    | ok b last =>
      rw [ranRight] at two
      have fits : op.resultType a.ty b.ty = some ty := by rw [one,two]; exact typed
      dsimp only
      rcases BinaryOp.apply_settled fits with ⟨result,applied,isTy⟩ | ⟨cause,applied,fails⟩
      · rw [applied]
        exact isTy
      · rw [applied]
        exact fails_root ⟨rfl,middle,a,b,ranLeft,ranRight,fails⟩

theorem evaluateReceiver_sound {receiver : Receiver (Expr σ)} {info : TypeInfo σ} (span : Span)
    (suits : scope.Suits context) (provided : scope.provider? receiver = some info)
    (below : ∀ target, receiver = .value target → ∀ state,
      target.Sound context state (target.evaluate context state)) (state : σ) :
    match Expr.evaluateReceiver context span receiver state with
    | .ok value _ => Admits info.name receiver.isStatic value
    | .error fault last => Expr.FailsAmong context receiver.target?.toList state fault last := by
  cases receiver with
  | context =>
    obtain ⟨typeName,bound,registered⟩ := Option.bind_eq_some_iff.mp provided
    obtain ⟨o,rfl,same⟩ := suits typeName bound
    refine .inr ?_
    rw [Registry.name_of_get? registered,← same]
    rfl
  | type name => exact .inl rfl
  | value target =>
    have here := below target rfl state
    rw [Expr.evaluateReceiver]
    cases ran : target.evaluate context state with
    | error fault after =>
      rw [ran] at here
      exact failsAmong_first here
    | ok value after =>
      rw [ran] at here
      refine .inr ?_
      rw [Registry.name_of_get? provided,here]

theorem evaluateArgs_sound {args : List (Expr σ)}
    (below : ∀ arg ∈ args, ∀ state, arg.Sound context state (arg.evaluate context state)) (state : σ) :
    match Expr.evaluateArgs context args state with
    | .ok values _ => values.map Value.ty = args.map Expr.ty
    | .error fault last => Expr.FailsAmong context args state fault last := by
  induction args generalizing state with
  | nil => rfl
  | cons arg args ih =>
    have here := below arg List.mem_cons_self state
    rw [Expr.evaluateArgs,bind_run]
    cases ran : arg.evaluate context state with
    | error fault middle =>
      rw [ran] at here
      exact failsAmong_first here
    | ok value middle =>
      rw [ran] at here
      have others := ih (fun other present => below other (List.mem_cons_of_mem _ present)) middle
      dsimp only
      rw [bind_run]
      cases ranOthers : Expr.evaluateArgs context args middle with
      | error fault last =>
        rw [ranOthers] at others
        exact failsAmong_right (evaluateArgs_singleton ran) others
      | ok values last =>
        rw [ranOthers] at others
        change value.ty :: values.map Value.ty = arg.ty :: args.map Expr.ty
        rw [here,others]

theorem evaluate_member {receiver : Receiver (Expr σ)} {m : Member σ} {info : TypeInfo σ} {span : Span}
    (suits : scope.Suits context) (conforms : info.Conforms)
    (provided : scope.provider? receiver = some info)
    (found : (info.table receiver.isStatic).findMember m.name = some m)
    (below : ∀ target, receiver = .value target → ∀ state,
      target.Sound context state (target.evaluate context state)) (state : σ) :
    (Expr.member receiver m span).Sound context state
      ((Expr.member receiver m span).evaluate context state) := by
  have one := evaluateReceiver_sound span suits provided below state
  rw [Expr.evaluate,bind_run]
  cases ran : Expr.evaluateReceiver context span receiver state with
  | error fault middle =>
    rw [ran] at one
    exact fails_among (supplied_of_suits suits provided) one
  | ok target middle =>
    rw [ran] at one
    dsimp only
    unfold Evaluation.access
    cases got : m.get target middle with
    | ok value last =>
      exact (conforms.tables _).members m (MemberTable.mem_of_findMember found) target middle value last one got
    | error e last => exact fails_root ⟨middle,target,e,ran,got,rfl⟩

theorem evaluate_access {e : Expr σ} {receiver : Receiver (Expr σ)} {args : List (Expr σ)}
    {info : TypeInfo σ} {span : Span} {name : String} {run : Value → List Value → Access σ Value}
    (children : e.children = receiver.target?.toList ++ args) (follows : e.receiver? = some receiver)
    (suits : scope.Suits context) (provided : scope.provider? receiver = some info)
    (below : ∀ target, receiver = .value target → ∀ state,
      target.Sound context state (target.evaluate context state))
    (arguments : ∀ arg ∈ args, ∀ state, arg.Sound context state (arg.evaluate context state))
    (returns : ∀ target values state value after, Admits info.name receiver.isStatic target →
      values.map Value.ty = args.map Expr.ty → run target values state = .ok value after →
      value.ty = e.ty)
    (blames : ∀ state middle later last target values failure,
      Expr.evaluateReceiver context span receiver state = .ok target middle →
      Expr.evaluateArgs context args middle = .ok values later →
      run target values later = .error failure last →
      e.Blames context state ⟨.hostFailure name failure.message,span⟩ last) (state : σ) :
    e.Sound context state ((do
      let target ← Expr.evaluateReceiver context span receiver
      let values ← Expr.evaluateArgs context args
      Evaluation.access name span (run target values)) state) := by
  have one := evaluateReceiver_sound span suits provided below state
  have supplied : e.receiver? = some .context → context ≠ none := follows ▸ supplied_of_suits suits provided
  rw [bind_run]
  cases ranReceiver : Expr.evaluateReceiver context span receiver state with
  | error fault middle =>
    rw [ranReceiver] at one
    exact fails_among supplied (children ▸ failsAmong_left args one)
  | ok target middle =>
    rw [ranReceiver] at one
    have two := evaluateArgs_sound arguments middle
    dsimp only
    rw [bind_run]
    cases ranArgs : Expr.evaluateArgs context args middle with
    | error fault later =>
      rw [ranArgs] at two
      obtain ⟨_,received⟩ := evaluateArgs_receiver ranReceiver
      exact fails_among supplied (children ▸ failsAmong_right received two)
    | ok values later =>
      rw [ranArgs] at two
      dsimp only
      unfold Evaluation.access
      -- From here on only the accessor itself can fail, and the node is blamed for it.
      cases ran : run target values later with
      | ok value last => exact returns target values later value last one two ran
      | error failure last =>
        exact fails_root (blames state middle later last target values failure ranReceiver ranArgs ran)

theorem evaluate_sound {e : Expr σ} (bound : WellBound scope e) (suits : scope.Suits context)
    (conforming : scope.registry.Conforming) (state : σ) :
    e.Sound context state (e.evaluate context state) := by
  have conforms : ∀ {receiver : Receiver (Expr σ)} {info : TypeInfo σ},
      scope.provider? receiver = some info → info.Conforms := by
    intro receiver info provided
    cases receiver with
    | context =>
      obtain ⟨typeName,_,registered⟩ := Option.bind_eq_some_iff.mp provided
      exact Registry.get?_conforms conforming registered
    | type name => exact Registry.get?_conforms conforming provided
    | value target => exact Registry.get?_conforms conforming provided
  induction bound generalizing state with
  | literal => rfl
  | unary _ typed operand => exact evaluate_unary typed operand state
  | binary _ _ typed first second => exact evaluate_binary typed first second state
  | member _ provided found below =>
    exact evaluate_member suits (conforms provided) provided found below state
  | call _ _ provided found below arguments =>
    have method := List.mem_of_find?_eq_some found
    have params := (MemberTable.name_of_findMethod found).2
    refine evaluate_access rfl rfl suits provided below arguments ?_ ?_ state
    · intro target values at_ value after admits fits ran
      exact ((conforms provided).tables _).methods _ method target values at_ value after admits
        (fits.trans params.symm) ran
    · intro at_ middle later last target values failure ranReceiver ranArgs ran
      exact ⟨middle,later,target,values,failure,ranReceiver,ranArgs,ran,rfl⟩
  | index _ _ dynamic provided found below arguments =>
    have indexer := List.mem_of_find?_eq_some found
    have params := TypeInfo.params_of_findIndexer found
    refine evaluate_access rfl rfl suits provided below arguments ?_ ?_ state
    · intro target values at_ value after admits fits ran
      rw [dynamic] at admits
      exact (conforms provided).indexers _ indexer target values at_ value after admits
        (fits.trans params.symm) ran
    · intro at_ middle later last target values failure ranReceiver ranArgs ran
      exact ⟨middle,later,target,values,failure,ranReceiver,ranArgs,ran,rfl⟩

-- A node is never to blame for a rule that covers no case, or for a missing context object.
theorem blames_runtime {node : Expr σ} {entry last : σ} {fault : Fault}
    (blames : node.Blames context entry fault last) :
    fault.cause.kind = .runtime ∧ fault.cause ≠ .noContextObject ∧
      (∀ op operand, fault.cause ≠ .unaryUndefined op operand) ∧
      ∀ op left right, fault.cause ≠ .binaryUndefined op left right := by
  cases node with
  | literal | unary => exact blames.elim
  | binary op left right ty span =>
    obtain ⟨_,_,_,_,_,_,fails⟩ := blames
    cases reason : fault.cause <;> rw [reason] at fails <;> cases fails <;> simp [Cause.kind]
  | member => obtain ⟨_,_,_,_,_,rfl⟩ := blames; simp [Cause.kind]
  | call => obtain ⟨_,_,_,_,_,_,_,_,rfl⟩ := blames; simp [Cause.kind]
  | index => obtain ⟨_,_,_,_,_,_,_,_,rfl⟩ := blames; simp [Cause.kind]

end Soundness

-- What may come of evaluating a formula with a context object from a state: a value of its type, or a
-- failure of the host or of an operator at the node that the evaluation comes to.
def CompiledFormula.MayLeadTo (f : CompiledFormula σ) (context : Option Object) (state : σ) :
    EStateM.Result Fault σ Value → Prop
  | .ok value _ => value.ty = f.resultType
  | .error fault last =>
      (∃ node ∈ f.expr.nodes, ∃ entry, f.expr.Reaches context state node entry ∧
        node.Blames context entry fault last) ∧
      fault.cause.kind = .runtime ∧ fault.cause ≠ .noContextObject ∧
      (∀ op operand, fault.cause ≠ .unaryUndefined op operand) ∧
      ∀ op left right, fault.cause ≠ .binaryUndefined op left right

namespace Soundness

theorem mayLeadTo_of_sound {f : CompiledFormula σ} {context : Option Object} {state : σ}
    {result : EStateM.Result Fault σ Value} (sound : f.expr.Sound context state result) :
    f.MayLeadTo context state result := by
  cases result with
  | ok value last => exact sound
  | error fault last =>
    obtain ⟨node,entry,reaches,blames⟩ := sound
    exact ⟨⟨node,mem_nodes_of_reaches reaches,entry,reaches,blames⟩,blames_runtime blames⟩

theorem compile_succeeds {registry : Registry σ} {context : Option Object} {limits : Limits}
    {text : String} {f : CompiledFormula σ} {notes : List Note}
    (compiled : Engine.compile registry context limits text = (.ok f,notes)) :
    Parser.parse (Engine.scope registry context) limits text = .ok f.expr ∧ f.context = context := by
  unfold Engine.compile Engine.parse at compiled
  unfold Parser.parse
  split at compiled
  · rename_i e more parsed
    cases compiled
    exact ⟨by rw [parsed],rfl⟩
  · cases compiled

theorem compiled_bound {registry : Registry σ} {context : Option Object} {limits : Limits}
    {text : String} {e : Expr σ}
    (parsed : Parser.parse (Engine.scope registry context) limits text = .ok e) :
    WellBound (Engine.scope registry context) e := by
  obtain ⟨_,⟨tokens,last,_,reads⟩,_⟩ := Parser.parse_ok_iff.mp parsed
  exact WellBound.ofReads reads

-- The built-in accessors conform, and wherever all accessors do, what compiles has values of its type
-- or fails for a reason of its own, with the context object it was compiled for or another of its type.
theorem compiled_sound : (∀ σ : Type, (Builtins.registry : Registry σ).Conforming) ∧
    ∀ (σ : Type) (registry : Registry σ) (context : Option Object) (limits : Limits) (text : String)
      (f : CompiledFormula σ) (notes : List Note), registry.Conforming →
      Engine.compile registry context limits text = (.ok f,notes) →
      (∀ state, f.MayLeadTo context state (f.evaluate state)) ∧
      ∀ o, (∀ bound, context = some bound → bound.typeName = o.typeName) →
        ∀ state, f.MayLeadTo (some o) state (f.evaluateWith o state) := by
  refine ⟨fun _ => Builtins.registry_conforming,?_⟩
  intro σ registry context limits text f notes conforming compiled
  obtain ⟨parsed,same⟩ := compile_succeeds compiled
  have bound := compiled_bound parsed
  constructor
  · intro state
    have suits : (Engine.scope registry context).Suits context := by
      intro typeName has
      obtain ⟨o,rfl,named⟩ := Option.map_eq_some_iff.mp has
      exact ⟨o,rfl,named⟩
    rw [CompiledFormula.evaluate,same]
    exact mayLeadTo_of_sound (evaluate_sound bound suits conforming state)
  · intro o fits state
    have suits : (Engine.scope registry context).Suits (some o) := by
      intro typeName has
      obtain ⟨given,isBound,named⟩ := Option.map_eq_some_iff.mp has
      exact ⟨o,rfl,(fits given isBound).symm.trans named⟩
    have sound := mayLeadTo_of_sound (evaluate_sound bound suits conforming state)
    unfold CompiledFormula.evaluateWith
    rw [same]
    cases context with
    | none => exact sound
    | some given =>
      dsimp only
      rw [if_pos (fits given rfl)]
      exact sound

def compiles (text : String) : Bool :=
  match (Engine.compile (Builtins.registry : Registry Unit) none {} text).1 with
  | .ok _ => true
  | .error _ => false

theorem quotient_sound : ∃ (f : CompiledFormula Unit) (notes : List Note),
    (Builtins.registry : Registry Unit).Conforming ∧
    Engine.compile Builtins.registry none {} "Math.Max(2, 9) / 0" = (.ok f,notes) ∧
    f.MayLeadTo none () (f.evaluate ()) := by
  have accepted : compiles "Math.Max(2, 9) / 0" = true := by decide +kernel
  unfold compiles at accepted
  split at accepted
  · rename_i f compiled
    have whole : Engine.compile Builtins.registry none {} "Math.Max(2, 9) / 0" =
        (.ok f,(Engine.compile (Builtins.registry : Registry Unit) none {} "Math.Max(2, 9) / 0").2) := by
      rw [← compiled]
    refine ⟨f,_,Builtins.registry_conforming,whole,?_⟩
    exact (compiled_sound.2 Unit _ none {} _ f _ Builtins.registry_conforming whole).1 ()
  · cases accepted

end Soundness
end TypedFormula
