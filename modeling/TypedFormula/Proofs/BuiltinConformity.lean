import TypedFormula.Proofs.Conformity

namespace TypedFormula.Builtins

variable {σ : Type}

def Returns (ty : Ty) (result : Except HostError Value) : Prop :=
  ∀ value, result = .ok value → value.ty = ty

theorem returns_ok {ty : Ty} {value : Value} (fits : value.ty = ty) : Returns ty (.ok value) := by
  rintro _ ⟨⟩
  exact fits

theorem returns_error {ty : Ty} {e : HostError} : Returns ty (.error e) := by
  rintro _ ⟨⟩

theorem returns_bind {α : Type} {ty : Ty} {first : Except HostError α} {next : α → Except HostError Value}
    (later : ∀ a, Returns ty (next a)) : Returns ty (first >>= next) := by
  cases first with
  | error e => exact returns_error
  | ok a => exact later a

theorem ofExcept_returns {ty : Ty} {result : Except HostError Value} (returns : Returns ty result)
    {state after : σ} {value : Value} (ran : Access.ofExcept result state = .ok value after) :
    value.ty = ty := by
  cases result with
  | error e => cases ran
  | ok given => cases ran; exact returns _ rfl

theorem parseArg_returns {α : Type} (read : List Char → Option α) (make : α → Value) (typeName : String)
    {ty : Ty} (makes : ∀ a, (make a).ty = ty) (args : List Value) :
    Returns ty (parseArg read make typeName args) := by
  refine returns_bind fun raw => ?_
  split
  · exact returns_ok (makes _)
  · exact returns_error

theorem onInt_returns (f : Int32 → Except HostError Int32) (args : List Value) :
    Returns .int (onInt f args) :=
  returns_bind fun _ => returns_bind fun _ => returns_ok rfl

theorem onInts_returns (f : Int32 → Int32 → Int32) (args : List Value) : Returns .int (onInts f args) :=
  returns_bind fun _ => returns_bind fun _ => returns_ok rfl

theorem onDouble_returns (f : Float → Float) (args : List Value) : Returns .double (onDouble f args) :=
  returns_bind fun _ => returns_ok rfl

theorem onDoubles_returns (f : Float → Float → Float) (args : List Value) :
    Returns .double (onDoubles f args) :=
  returns_bind fun _ => returns_bind fun _ => returns_ok rfl

theorem onDecimal_returns (f : Decimal → Decimal) (args : List Value) :
    Returns .decimal (onDecimal f args) :=
  returns_bind fun _ => returns_ok rfl

theorem onDecimals_returns (f : Decimal → Decimal → Decimal) (args : List Value) :
    Returns .decimal (onDecimals f args) :=
  returns_bind fun _ => returns_bind fun _ => returns_ok rfl

theorem lengthOfReceiver_returns (receiver : Value) : Returns .int (lengthOfReceiver receiver) :=
  returns_bind fun _ => returns_bind fun _ => returns_ok rfl

theorem mapReceiver_returns (f : List Char → List Char) (receiver : Value) :
    Returns .text (mapReceiver f receiver) :=
  returns_bind fun _ => returns_ok rfl

theorem testReceiver_returns (test : String → String → Bool) (receiver : Value) (args : List Value) :
    Returns .bool (testReceiver test receiver args) :=
  returns_bind fun _ => returns_bind fun _ => returns_ok rfl

theorem substringFrom_returns (receiver : Value) (args : List Value) :
    Returns .text (substringFrom receiver args) :=
  returns_bind fun _ => returns_bind fun _ => returns_bind fun _ => returns_ok rfl

theorem substringOf_returns (receiver : Value) (args : List Value) :
    Returns .text (substringOf receiver args) :=
  returns_bind fun _ => returns_bind fun _ => returns_bind fun _ => returns_bind fun _ => returns_ok rfl

theorem characterOf_returns (receiver : Value) (args : List Value) :
    Returns .text (characterOf receiver args) :=
  returns_bind fun _ => returns_bind fun _ => returns_bind fun _ => returns_ok rfl

theorem concatTwo_returns (args : List Value) : Returns .text (concatTwo args) :=
  returns_bind fun _ => returns_bind fun _ => returns_ok rfl

theorem concatThree_returns (args : List Value) : Returns .text (concatThree args) :=
  returns_bind fun _ => returns_bind fun _ => returns_bind fun _ => returns_ok rfl

theorem isNullOrEmpty_returns (args : List Value) : Returns .bool (isNullOrEmpty args) :=
  returns_bind fun _ => returns_ok rfl

variable {typeName : String}

theorem staticField_conforms {name : String} {ty : Ty} {value : Value} (fits : value.ty = ty) :
    (Declaration.staticField name ty value : Declaration σ).Conforms typeName := by
  intro receiver state given after _ ran
  cases ran
  exact fits

theorem staticMethod_conforms {name : String} {params : List Ty} {result : Ty}
    {run : List Value → Except HostError Value} (returns : ∀ args, Returns result (run args)) :
    (Declaration.staticMethod name params result fun args => .ofExcept (run args) :
      Declaration σ).Conforms typeName :=
  fun _ args _ _ _ _ _ ran => ofExcept_returns (returns args) ran

theorem valueProperty_conforms {name : String} {ty : Ty} {run : Value → Except HostError Value}
    (returns : ∀ receiver, Returns ty (run receiver)) :
    (Declaration.valueProperty name ty fun receiver => .ofExcept (run receiver) :
      Declaration σ).Conforms typeName :=
  fun receiver _ _ _ _ ran => ofExcept_returns (returns receiver) ran

theorem valueMethod_conforms {name : String} {params : List Ty} {result : Ty}
    {run : Value → List Value → Except HostError Value}
    (returns : ∀ receiver args, Returns result (run receiver args)) :
    (Declaration.valueMethod name params result fun receiver args => .ofExcept (run receiver args) :
      Declaration σ).Conforms typeName :=
  fun receiver args _ _ _ _ _ ran => ofExcept_returns (returns receiver args) ran

theorem valueIndexer_conforms {params : List Ty} {result : Ty}
    {run : Value → List Value → Except HostError Value}
    (returns : ∀ receiver args, Returns result (run receiver args)) :
    (Declaration.valueIndexer params result fun receiver args => .ofExcept (run receiver args) :
      Declaration σ).Conforms typeName :=
  fun receiver args _ _ _ _ _ ran => ofExcept_returns (returns receiver args) ran

theorem toStringMethod_conforms : (toStringMethod : Declaration σ).Conforms typeName := by
  intro receiver args state value after _ _ ran
  cases ran
  rfl

theorem parseMethod_conforms {α : Type} {read : List Char → Option α} {make : α → Value} {ty : Ty}
    (makes : ∀ a, (make a).ty = ty) : (parseMethod read make ty : Declaration σ).Conforms typeName :=
  staticMethod_conforms (parseArg_returns read make ty.name makes)

theorem boolType_conforms : (boolType : TypeInfo σ).Conforms := by
  refine TypeInfo.ofDeclarations_conforms ?_
  simp only [List.forall_mem_cons]
  exact ⟨toStringMethod_conforms,parseMethod_conforms fun _ => rfl,by simp⟩

theorem intType_conforms : (intType : TypeInfo σ).Conforms := by
  refine TypeInfo.ofDeclarations_conforms ?_
  simp only [List.forall_mem_cons]
  exact ⟨toStringMethod_conforms,staticField_conforms rfl,staticField_conforms rfl,
    parseMethod_conforms fun _ => rfl,by simp⟩

theorem floatType_conforms : (floatType : TypeInfo σ).Conforms := by
  refine TypeInfo.ofDeclarations_conforms ?_
  simp only [List.forall_mem_cons]
  exact ⟨toStringMethod_conforms,parseMethod_conforms fun _ => rfl,by simp⟩

theorem doubleType_conforms : (doubleType : TypeInfo σ).Conforms := by
  refine TypeInfo.ofDeclarations_conforms ?_
  simp only [List.forall_mem_cons]
  exact ⟨toStringMethod_conforms,staticField_conforms rfl,staticField_conforms rfl,
    staticField_conforms rfl,parseMethod_conforms fun _ => rfl,by simp⟩

theorem decimalType_conforms : (decimalType : TypeInfo σ).Conforms := by
  refine TypeInfo.ofDeclarations_conforms ?_
  simp only [List.forall_mem_cons]
  exact ⟨toStringMethod_conforms,staticField_conforms rfl,staticField_conforms rfl,
    parseMethod_conforms fun _ => rfl,by simp⟩

theorem stringType_conforms : (stringType : TypeInfo σ).Conforms := by
  refine TypeInfo.ofDeclarations_conforms ?_
  simp only [List.forall_mem_cons]
  refine ⟨toStringMethod_conforms,valueProperty_conforms lengthOfReceiver_returns,?_⟩
  refine ⟨valueMethod_conforms fun receiver _ => mapReceiver_returns _ receiver,
    valueMethod_conforms fun receiver _ => mapReceiver_returns _ receiver,
    valueMethod_conforms fun receiver _ => mapReceiver_returns _ receiver,?_⟩
  refine ⟨valueMethod_conforms substringFrom_returns,valueMethod_conforms substringOf_returns,?_⟩
  refine ⟨valueMethod_conforms (testReceiver_returns _),valueMethod_conforms (testReceiver_returns _),
    valueMethod_conforms (testReceiver_returns _),valueIndexer_conforms characterOf_returns,?_⟩
  exact ⟨staticField_conforms rfl,staticMethod_conforms concatTwo_returns,
    staticMethod_conforms concatThree_returns,staticMethod_conforms isNullOrEmpty_returns,by simp⟩

theorem mathType_conforms : (mathType : TypeInfo σ).Conforms := by
  refine TypeInfo.ofDeclarations_conforms ?_
  simp only [List.forall_mem_cons]
  refine ⟨staticField_conforms rfl,staticField_conforms rfl,?_⟩
  refine ⟨staticMethod_conforms (onInt_returns _),staticMethod_conforms (onDouble_returns _),
    staticMethod_conforms (onDecimal_returns _),staticMethod_conforms (onDoubles_returns _),?_⟩
  refine ⟨staticMethod_conforms (onDouble_returns _),staticMethod_conforms (onDouble_returns _),
    staticMethod_conforms (onDouble_returns _),staticMethod_conforms (onDouble_returns _),
    staticMethod_conforms (onDecimal_returns _),?_⟩
  exact ⟨staticMethod_conforms (onInts_returns _),staticMethod_conforms (onInts_returns _),
    staticMethod_conforms (onDoubles_returns _),staticMethod_conforms (onDoubles_returns _),
    staticMethod_conforms (onDecimals_returns _),staticMethod_conforms (onDecimals_returns _),by simp⟩

theorem registry_conforming : (registry : Registry σ).Conforming := by
  refine Registry.forall_ofTypes ?_
  simp only [types,List.forall_mem_cons]
  exact ⟨boolType_conforms,intType_conforms,floatType_conforms,doubleType_conforms,decimalType_conforms,
    stringType_conforms,mathType_conforms,by simp⟩

end TypedFormula.Builtins
