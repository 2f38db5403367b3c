import TypedFormula.Proofs.BuiltinConformity
import TypedFormula.Proofs.Declarations
import TypedFormula.Proofs.ForcedReadings
import TypedFormula.Proofs.RoundTrip
import TypedFormula.Proofs.Soundness
import TypedFormula.Proofs.SpanlessEvaluation

namespace TypedFormula

variable {σ : Type}

theorem dot_mem_dotted {names : List String} (several : 2 ≤ names.length) : '.' ∈ (dotted names).toList := by
  obtain ⟨first,names,rfl⟩ := List.exists_cons_of_length_pos (Nat.lt_of_lt_of_le Nat.zero_lt_two several)
  obtain ⟨second,others,rfl⟩ := List.exists_cons_of_length_pos (Nat.le_of_succ_le_succ several)
  rw [dotted,String.intercalate_cons_cons]
  simp

def Registry.Plain (registry : Registry σ) : Prop := ∀ info ∈ registry.types, '.' ∉ info.name.toList

theorem Registry.Plain.get?_dotted {registry : Registry σ} (plain : registry.Plain) {names : List String}
    (several : 2 ≤ names.length) : registry.get? (dotted names) = none := by
  cases found : registry.get? (dotted names) with
  | none => rfl
  | some info =>
    have clear := plain info (List.mem_of_find?_eq_some found)
    rw [Registry.name_of_get? found] at clear
    exact absurd (dot_mem_dotted several) clear

theorem Builtins.registry_plain : (registry : Registry σ).Plain := by
  refine Registry.forall_ofTypes ?_
  simp only [types,List.forall_mem_cons,boolType,intType,floatType,doubleType,decimalType,stringType,mathType,
    TypeInfo.name_ofDeclarations]
  exact ⟨by decide,by decide,by decide,by decide,by decide,by decide,by decide,List.forall_mem_nil _⟩

namespace Expr

variable {scope : Scope σ}

-- Without a context every rooted name starts from a type.
theorem root_type {e : Expr σ} {root : Receiver (Expr σ)} (noContext : scope.context = none)
    (bound : WellBound scope e) (rooted : e.root? = some root) : ∃ name, root = .type name := by
  induction e using Expr.induction with
  | literal | unary | binary | call | index => cases rooted
  | member receiver m span below =>
    cases receiver with
    | context =>
      cases bound with
      | member _ provided =>
        rw [Scope.provider?,noContext] at provided
        cases provided
    | type name => exact ⟨name,(Option.some.inj rooted).symm⟩
    | value target =>
      cases bound with
      | member inner => exact below target rfl (inner target rfl) rooted

theorem nameClear_of_plain {receiver : Receiver (Expr σ)} {info : TypeInfo σ} (noContext : scope.context = none)
    (plain : scope.registry.Plain) (below : ∀ target, receiver = .value target → WellBound scope target)
    (provided : scope.provider? receiver = some info) (name : String) : NameClear scope receiver name := by
  intro root rooted n longer proper
  have isType : ∃ typeName, root = .type typeName := by
    cases receiver with
    | context =>
      rw [Scope.provider?,noContext] at provided
      cases provided
    | type typeName => exact ⟨typeName,(Option.some.inj rooted).symm⟩
    | value target => exact root_type noContext (below target rfl) rooted
  obtain ⟨typeName,rfl⟩ := isType
  refine plain.get?_dotted ?_
  change 1 < n at longer
  rw [List.length_take,List.length_append,List.length_singleton]
  omega

-- If no type has a dot in its name, no longer beginning of a name is a type.
theorem namesClear_of_plain {e : Expr σ} (noContext : scope.context = none) (plain : scope.registry.Plain)
    (bound : WellBound scope e) : ∀ node ∈ e.nodes, node.NamesClear scope := by
  induction e using children_induction with
  | step e ih =>
    refine (forall_nodes_iff e).mpr ⟨?_,fun child isChild => ih child isChild (bound.child isChild)⟩
    cases bound with
    | literal | unary | binary | index => trivial
    | member below provided => exact nameClear_of_plain noContext plain below provided _
    | call below _ provided => exact nameClear_of_plain noContext plain below provided _

end Expr

namespace Parser

open TypedFormula.Expr

-- A text is parsed to a tree whatever limits are high enough for it.
def ParsesTo (scope : Scope σ) (text : String) (e : Expr σ) : Prop :=
  ∃ least : Limits, ∀ limits : Limits, least.maxLength ≤ limits.maxLength → least.maxDepth ≤ limits.maxDepth →
    least.maxHeight ≤ limits.maxHeight → parse scope limits text = .ok e

variable {scope : Scope σ} {limits : Limits} {text : String} {t : Expr σ}

theorem ParsesTo.parses {e : Expr σ} (parses : ParsesTo scope text e) : ∃ limits, parse scope limits text = .ok e := by
  obtain ⟨least,high⟩ := parses
  exact ⟨least,high least (Nat.le_refl _) (Nat.le_refl _) (Nat.le_refl _)⟩

theorem ParsesTo.unique {e other : Expr σ} (one : ParsesTo scope text e) (two : ParsesTo scope text other) :
    e = other := by
  obtain ⟨low,first⟩ := one
  obtain ⟨low',second⟩ := two
  let wide : Limits := ⟨max low.maxLength low'.maxLength,max low.maxDepth low'.maxDepth,
    max low.maxHeight low'.maxHeight⟩
  have read := first wide (Nat.le_max_left _ _) (Nat.le_max_left _ _) (Nat.le_max_left _ _)
  have again := second wide (Nat.le_max_right _ _) (Nat.le_max_right _ _) (Nat.le_max_right _ _)
  exact Except.ok.inj (read.symm.trans again)

theorem applies_of_parsed {again : Limits} {e : Expr σ} (parsed : parse scope limits text = .ok t)
    (names : ∀ node ∈ t.nodes, node.NamesClear scope) (reparsed : parse scope again t.print = .ok e) :
    ∀ node ∈ t.nodes, node.Applies := by
  have traceable : Traceable scope t := ⟨(parsed_tree parsed).1,(parsed_tree parsed).2.legible,names⟩
  obtain ⟨_,⟨tokens,last,tokenized,reads⟩,_⟩ := parse_ok_iff.mp reparsed
  obtain ⟨front,final,split,kinds,ends⟩ := print_tokenized (parsed_tree parsed).2.spellable
  obtain ⟨rfl,same⟩ := List.append_inj' (Except.ok.inj (tokenized.symm.trans split)) rfl
  cases same
  have takes : Takes scope (.layered BinaryOp.layers e) (tokens ++ [last]) [last] := .of reads
  exact ((reveals t traceable).closed kinds (.inr (.inr (.inr ends))) takes).1

theorem print_parses_iff (parsed : parse scope limits text = .ok t)
    (names : ∀ node ∈ t.nodes, node.NamesClear scope) :
    (∃ e, ParsesTo scope t.print e ∧ Alike Eq t.reread e) ↔ ∀ node ∈ t.nodes, node.Applies := by
  constructor
  · rintro ⟨e,parses,_⟩
    obtain ⟨again,reparsed⟩ := parses.parses
    exact applies_of_parsed parsed names reparsed
  · intro applies
    obtain ⟨e,alike,parses⟩ := print_parses parsed (repeatable_of_parsed parsed applies names)
    exact ⟨e,⟨⟨Text.byteLength t.print.toList,t.height,e.height⟩,parses⟩,alike⟩

end Parser

-- Evaluations whose results look alike: values with the same text, or failures at runtime.
def SameShown : EStateM.Result Fault σ Value → EStateM.Result Fault σ Value → Prop
  | .ok v _, .ok w _ => v.toText = w.toText
  | .error fault _, .error other _ => fault.cause.kind = .runtime ∧ other.cause.kind = .runtime
  | _, _ => False

theorem SameShown.of_matches {result other : EStateM.Result Fault σ Value} (matching : Evaluation.Matches result other)
    (runtime : ∀ fault state, result = .error fault state → fault.cause.kind = .runtime) : SameShown result other := by
  cases result with
  | ok v =>
    cases other with
    | ok w => exact congrArg Value.toText matching.1
    | error => exact matching.elim
  | error fault state =>
    cases other with
    | ok => exact matching.elim
    | error blamed =>
      have here := runtime fault state rfl
      exact ⟨here,by rw [← matching.1]; exact here⟩

-- Where faults are blamed is not shown.
theorem sameShown_congr {result one two : EStateM.Result Fault σ Value} (matching : Evaluation.Matches one two) :
    SameShown result one ↔ SameShown result two := by
  cases one with
  | ok v =>
    cases two with
    | ok w =>
      obtain ⟨rfl,rfl⟩ := matching
      exact Iff.rfl
    | error => exact matching.elim
  | error fault =>
    cases two with
    | ok => exact matching.elim
    | error blamed =>
      cases result with
      | ok => exact Iff.rfl
      | error => rw [SameShown,SameShown,matching.1]

namespace Expr

-- A literal that comes back from its text as the same value; a decimal does if its places are shown.
def KeepsLiteral : Expr σ → Prop
  | .literal v _ => v.reread = v
  | _ => True

instance (e : Expr σ) : Decidable e.KeepsLiteral :=
  match e with
  | .literal v _ => inferInstanceAs (Decidable (v.reread = v))
  | .unary _ _ _ _ | .binary _ _ _ _ _ | .member _ _ _ | .call _ _ _ _ | .index _ _ _ _ =>
    inferInstanceAs (Decidable True)

end Expr

namespace Parser

open TypedFormula.Expr

def builtinScope : Scope σ := ⟨Builtins.registry,none⟩

-- The text of a tree is parsed to one of the same type whose evaluations look alike.
def Preserves (t : Expr σ) : Prop :=
  ∃ e, ParsesTo builtinScope t.print e ∧ e.ty = t.ty ∧
    ∀ state, SameShown (t.evaluate none state) (e.evaluate none state)

variable {limits : Limits} {text : String} {t : Expr σ}

theorem builtin_names (parsed : parse builtinScope limits text = .ok t) :
    ∀ node ∈ t.nodes, node.NamesClear builtinScope :=
  namesClear_of_plain rfl Builtins.registry_plain (parsed_tree parsed).1

theorem fails_at_runtime (parsed : parse builtinScope limits text = .ok t) {state after : σ} {fault : Fault}
    (failed : t.evaluate none state = .error fault after) : fault.cause.kind = .runtime := by
  have suits : (builtinScope : Scope σ).Suits none := fun _ context => by cases context
  have sound := Soundness.evaluate_sound (parsed_tree parsed).1 suits Builtins.registry_conforming state
  rw [failed] at sound
  obtain ⟨node,entry,_,blames⟩ := sound
  exact (Soundness.blames_runtime blames).1

theorem not_preserves (parsed : parse builtinScope limits text = .ok t) (lost : ¬∀ node ∈ t.nodes, node.Applies) :
    ¬Preserves t := by
  rintro ⟨e,parses,_⟩
  obtain ⟨again,reparsed⟩ := parses.parses
  exact lost (applies_of_parsed parsed (builtin_names parsed) reparsed)

theorem preserves_iff_reread (parsed : parse builtinScope limits text = .ok t) :
    Preserves t ↔ (∀ node ∈ t.nodes, node.Applies) ∧
      ∀ state, SameShown (t.evaluate none state) (t.reread.evaluate none state) := by
  have again := print_parses_iff parsed (builtin_names parsed)
  constructor
  · intro preserves
    have applies : ∀ node ∈ t.nodes, node.Applies := by
      by_contra lost
      exact not_preserves parsed lost preserves
    obtain ⟨e,parses,_,shown⟩ := preserves
    obtain ⟨other,same,alike⟩ := again.mpr applies
    cases parses.unique same
    exact ⟨applies,fun state => (sameShown_congr (evaluate_matches alike state)).mpr (shown state)⟩
  · rintro ⟨applies,shown⟩
    obtain ⟨e,parses,alike⟩ := again.mpr applies
    refine ⟨e,parses,?_,fun state => (sameShown_congr (evaluate_matches alike state)).mp (shown state)⟩
    rw [← alike.ty fun _ _ same => by rw [same]]
    exact rereadUnder_ty (parsed_tree parsed).1 []

theorem hasLiteral_kept {e : Expr σ} (kept : ∀ node ∈ e.nodes, node.KeepsLiteral) {v : Value} (has : e.HasLiteral v) :
    v = v.reread := by
  obtain ⟨node,present,span,rfl⟩ := has
  exact (kept _ present).symm

-- Printing preserves what a formula means exactly if all operators apply to what they are printed in front
-- of and the tree that the text stands for looks alike when it is evaluated. Operands that unary operators
-- keep and literals that come back are enough for it.
theorem print_preserves_iff (limits : Limits) (text : String) (t : Expr σ)
    (parsed : parse builtinScope limits text = .ok t) :
    (Preserves t ↔ (∀ node ∈ t.nodes, node.Applies) ∧
      ∀ state, SameShown (t.evaluate none state) (t.reread.evaluate none state)) ∧
    ((∀ node ∈ t.nodes, node.OperandHolds) → (∀ node ∈ t.nodes, node.KeepsLiteral) → Preserves t) := by
  have exactly := preserves_iff_reread parsed
  refine ⟨exactly,?_⟩
  intro operands kept
  have bound := (parsed_tree parsed).1
  have alike : Alike Eq t t.reread := alike_reread bound (fun v has => hasLiteral_kept kept has) operands
  refine exactly.mpr ⟨applies_of_holds bound operands,?_⟩
  intro state
  exact .of_matches (evaluate_matches alike state) fun fault after failed => fails_at_runtime parsed failed

def builtinCheck (check : Expr Unit → Bool) (text : String) : Bool :=
  match parse builtinScope {} text with
  | .ok t => check t
  | .error _ => false

theorem builtinCheck_parses {check : Expr Unit → Bool} {text : String} (checked : builtinCheck check text = true) :
    ∃ t, parse builtinScope {} text = .ok t ∧ check t = true := by
  unfold builtinCheck at checked
  split at checked
  · rename_i t parsed
    exact ⟨t,parsed,checked⟩
  · cases checked

def keptFormula : String := "-(1.50m + decimal.Parse(\"2\")).ToString().Length < Math.Abs(-3)"

theorem sum_preserved : ∃ t : Expr Unit, parse builtinScope {} keptFormula = .ok t ∧ Preserves t := by
  have checked : builtinCheck (fun t => decide (∀ node ∈ t.nodes, node.OperandHolds ∧ node.KeepsLiteral)) keptFormula =
      true := by decide +kernel
  obtain ⟨t,parsed,holds⟩ := builtinCheck_parses checked
  have both := of_decide_eq_true holds
  exact ⟨t,parsed,(print_preserves_iff {} keptFormula t parsed).2 (fun node present => (both node present).1)
    fun node present => (both node present).2⟩

-- The operator is printed in front of a text that had its length taken first.
def lostFormula : String := "-(string.Concat(\"a\", \"b\").ToUpper()).Length"

theorem length_lost : ∃ t : Expr Unit, parse builtinScope {} lostFormula = .ok t ∧ ¬Preserves t := by
  have checked : builtinCheck (fun t => !decide (∀ node ∈ t.nodes, node.Applies)) lostFormula = true := by
    decide +kernel
  obtain ⟨t,parsed,lost⟩ := builtinCheck_parses checked
  exact ⟨t,parsed,not_preserves parsed (by simpa using lost)⟩

end Parser
end TypedFormula
