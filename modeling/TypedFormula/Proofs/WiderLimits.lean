import TypedFormula.Builtins
import TypedFormula.Proofs.Outcomes
import TypedFormula.Proofs.Trees

namespace TypedFormula

structure Limits.AtMost (narrow wide : Limits) : Prop where
  length : narrow.maxLength ≤ wide.maxLength
  depth : narrow.maxDepth ≤ wide.maxDepth
  height : narrow.maxHeight ≤ wide.maxHeight

-- What a computation does that is not stopped by the nesting limit, the other one does too: the same
-- result or fault, and the same state after it.
def Extends {α : Type} (p q : Parse α) : Prop :=
  ∀ s, q s = p s ∨ ∃ fault last, p s = .error fault last ∧ fault.cause.kind = .nestingLimit

namespace Extends

variable {α β : Type}

theorem refl (p : Parse α) : Extends p p := fun _ => .inl rfl

theorem bind {p q : Parse α} {f g : α → Parse β} (first : Extends p q)
    (next : ∀ a, Extends (f a) (g a)) : Extends (p >>= f) (q >>= g) := by
  intro s
  rw [bind_run,bind_run]
  rcases first s with same | ⟨fault,last,stopped,limit⟩
  · rw [same]
    cases p s with
    | ok a middle => exact next a middle
    | error fault last => exact .inl rfl
  · rw [stopped]
    exact .inr ⟨fault,last,rfl,limit⟩

theorem after (p : Parse α) {f g : α → Parse β} (next : ∀ a, Extends (f a) (g a)) :
    Extends (p >>= f) (p >>= g) :=
  bind (refl p) next

end Extends

namespace Parser

variable {σ : Type}

-- As many levels further in as the first parsers can step, the second ones can step too.
def InnerExtends (inner wider : Inner σ) : Prop :=
  ∀ parse, inner = some parse → ∃ other, wider = some other ∧ ∀ g, Extends (parse g) (other g)

variable {scope : Scope σ} {narrow wide : Limits} {inner wider : Inner σ}

-- A step inwards that the narrower limits refuse is stopped by the nesting limit.
theorem nested_extends {α : Type} (inside : InnerExtends inner wider) (span : Span)
    {f g : (Goal → Parse (Expr σ)) → Parse α}
    (next : ∀ parse other, (∀ goal, Extends (parse goal) (other goal)) → Extends (f parse) (g other)) :
    Extends (nested narrow inner span >>= f) (nested wide wider span >>= g) := by
  cases found : inner with
  | none => exact fun s => .inr ⟨_,s,rfl,rfl⟩
  | some parse =>
    obtain ⟨other,rfl,follows⟩ := inside parse found
    exact next parse other follows

theorem separated_extends {element other : Parse (Expr σ)} (close : TokenKind)
    (follows : Extends element other) (steps : Nat) :
    Extends (separated element close steps) (separated other close steps) := by
  induction steps with
  | zero => exact .refl _
  | succ steps ih =>
    refine follows.bind fun first => .after _ fun token => ?_
    split
    · exact .after _ fun _ => ih.bind fun _ => .refl _
    · exact .refl _

theorem arguments_extends (inside : InnerExtends inner wider) (close : TokenKind) :
    Extends (arguments narrow inner close) (arguments wide wider close) := by
  refine .after _ fun opening => .after _ fun _ => .after _ fun first => ?_
  split
  · exact .refl _
  · refine .after _ fun left => (separated_extends close ?_ _).bind fun _ => .refl _
    exact nested_extends inside _ fun _ _ follows => follows .expression

theorem indexer_extends (inside : InnerExtends inner wider) (target : Option (Expr σ)) (span : Span) :
    Extends (indexer scope narrow inner target span) (indexer scope wide wider target span) :=
  .after _ fun _ => .after _ fun _ => (arguments_extends inside _).bind fun _ => .refl _

theorem call_extends (inside : InnerExtends inner wider) (name : DottedName) (span : Span)
    (target : Option (Expr σ)) :
    Extends (call scope narrow inner name span target) (call scope wide wider name span target) :=
  .after _ fun _ => (arguments_extends inside _).bind fun _ => .refl _

theorem named_extends (inside : InnerExtends inner wider) (spelling : String) (span : Span)
    (target : Option (Expr σ)) :
    Extends (named scope narrow inner spelling span target)
      (named scope wide wider spelling span target) := by
  refine .after _ fun _ => .after _ fun token => ?_
  split
  · exact call_extends inside _ _ _
  · exact .after _ fun _ => indexer_extends inside _ _
  · exact .refl _

theorem suffixes_extends (inside : InnerExtends inner wider) (steps : Nat) (e : Expr σ) :
    Extends (suffixes scope narrow inner steps e) (suffixes scope wide wider steps e) := by
  induction steps generalizing e with
  | zero => exact .refl _
  | succ steps ih =>
    refine .after _ fun dot => ?_
    split
    · refine .after _ fun _ => .after _ fun token => ?_
      split
      · exact (named_extends inside _ _ _).bind ih
      · exact .refl _
    · exact .refl _

theorem withSuffixes_extends (inside : InnerExtends inner wider) (e : Expr σ) :
    Extends (withSuffixes scope narrow inner e) (withSuffixes scope wide wider e) :=
  .after _ fun _ => suffixes_extends inside _ e

theorem unary_extends (inside : InnerExtends inner wider) (op : UnaryOp) (span : Span) :
    Extends (unary narrow inner op span) (unary wide wider op span) :=
  nested_extends inside span fun _ _ follows =>
    .after _ fun _ => (follows .primary).bind fun _ => .refl _

theorem group_extends (inside : InnerExtends inner wider) (span : Span) :
    Extends (group scope narrow inner span) (group scope wide wider span) :=
  nested_extends inside span fun _ _ follows => .after _ fun _ => (follows .expression).bind fun _ =>
    .after _ fun _ => withSuffixes_extends inside _

theorem primary_extends (inside : InnerExtends inner wider) :
    Extends (primary scope narrow inner) (primary scope wide wider) := by
  refine .after _ fun token => ?_
  cases token.kind.literal? with
  | some value => exact .refl _
  | none =>
    dsimp only
    split
    · exact group_extends inside _
    · exact unary_extends inside _ _
    · exact unary_extends inside _ _
    · split
      · exact .refl _
      · exact indexer_extends inside _ _
    · exact named_extends inside _ _ _
    · exact .refl _

theorem operators_extends {n : Nat} {tighter other : (m : Nat) → m < n → Parse (Expr σ)}
    (follows : ∀ m less, Extends (tighter m less) (other m less)) (steps : Nat) (left : Expr σ) :
    Extends (operators n tighter steps left) (operators n other steps left) := by
  induction steps generalizing left with
  | zero => exact .refl _
  | succ steps ih =>
    refine .after _ fun token => ?_
    split
    · split
      · exact .after _ fun _ => (follows _ _).bind fun _ => .after _ ih
      · exact .refl _
    · exact .refl _

theorem expression_extends {operand other : Parse (Expr σ)} (follows : Extends operand other) (n : Nat) :
    Extends (expression operand n) (expression other n) := by
  induction n using Nat.strongRecOn with
  | ind n ih =>
    rw [expression,expression]
    exact follows.bind fun left => .after _ fun steps => operators_extends ih _ _

theorem goal_extends (inside : InnerExtends inner wider) (g : Goal) :
    Extends (goal scope narrow inner g) (goal scope wide wider g) := by
  cases g with
  | primary => exact primary_extends inside
  | expression =>
    exact expression_extends ((primary_extends inside).bind fun _ => withSuffixes_extends inside _) _

-- Each level of nesting that is used up on one side is used up on the other.
theorem within_extends (room more : Nat) (le : room ≤ more) (g : Goal) :
    Extends (within scope narrow room g) (within scope wide more g) := by
  induction room generalizing more g with
  | zero =>
    have inside (wider : Inner σ) : InnerExtends none wider := fun _ none => by cases none
    cases more with
    | zero | succ => exact goal_extends (inside _) g
  | succ room ih =>
    obtain ⟨more,rfl⟩ : ∃ m, more = m + 1 := ⟨more - 1,by omega⟩
    refine goal_extends ?_ g
    intro parse same
    cases same
    exact ⟨_,rfl,ih more (Nat.le_of_succ_le_succ le)⟩

theorem low_mono {e : Expr σ} (le : narrow.AtMost wide)
    (low : e.firstDeeperThan narrow.maxHeight = none) : e.firstDeeperThan wide.maxHeight = none := by
  rw [Expr.firstDeeperThan_none_iff] at *
  exact Nat.le_trans low le.height

theorem formula_extends (le : narrow.AtMost wide) (text : String) :
    Extends (formula scope narrow text) (formula scope wide text) := by
  refine .after _ fun _ => (within_extends _ _ le.depth _).bind fun e => .after _ fun token => ?_
  dsimp only
  by_cases behind : token.kind ≠ .ending
  · rw [if_pos behind,if_pos behind]
    exact fun s => .inl rfl
  · rw [if_neg behind,if_neg behind]
    cases deep : e.firstDeeperThan narrow.maxHeight with
    | some span => exact fun s => .inr ⟨_,s,rfl,rfl⟩
    | none =>
      rw [low_mono le deep]
      exact .refl _

theorem run_wider (scope : Scope σ) (le : narrow.AtMost wide) (text : String) :
    run scope wide text = run scope narrow text ∨
      ∃ fault, parse scope narrow text = .error fault ∧
        (fault.cause.kind = .nestingLimit ∨ fault.cause.kind = .formulaTooLong) := by
  unfold parse
  rcases Nat.lt_or_ge narrow.maxLength (Text.byteLength text.toList) with long | short
  · rw [run_long long]
    exact .inr ⟨_,rfl,.inr rfl⟩
  · rw [run_short short,run_short (Nat.le_trans short le.length)]
    have follows : Extends (formula scope narrow text) (formula scope wide text) := formula_extends le text
    rcases follows ⟨.initial,Lexer.readings text,[]⟩ with same | ⟨fault,last,stopped,limit⟩
    · rw [same]
      exact .inl rfl
    · rw [stopped]
      exact .inr ⟨fault,rfl,.inl limit⟩

-- Raising limits only removes faults of limits: a tree stays the same tree, and a fault of another kind
-- stays the same fault.
theorem parse_wider (scope : Scope σ) (le : narrow.AtMost wide) (text : String) :
    (∀ e, parse scope narrow text = .ok e → parse scope wide text = .ok e) ∧
    ∀ fault, parse scope narrow text = .error fault → fault.cause.kind ≠ .nestingLimit →
      fault.cause.kind ≠ .formulaTooLong → parse scope wide text = .error fault := by
  rcases run_wider scope le text with same | ⟨limit,stopped,kind⟩
  · have outcome : parse scope wide text = parse scope narrow text := congrArg Prod.fst same
    rw [outcome]
    exact ⟨fun _ => id,fun _ failed _ _ => failed⟩
  · rw [stopped]
    refine ⟨fun _ none => (by cases none),fun fault same notNested notLong => ?_⟩
    cases same
    exact (kind.elim notNested notLong).elim

def tightLimits : Limits := ⟨21,3,4⟩

def builtinNames : Scope Unit := ⟨Builtins.registry,none⟩

theorem maximum_wider : tightLimits.AtMost {} ∧
    (∃ e, parse builtinNames tightLimits "Math.Max(2, -(9)) = 9" = .ok e ∧
      parse builtinNames {} "Math.Max(2, -(9)) = 9" = .ok e) ∧
    ∃ fault, parse builtinNames tightLimits "Math.Max(2, -true)" = .error fault ∧
      fault.cause.kind = .operatorMismatch ∧ parse builtinNames {} "Math.Max(2, -true)" = .error fault := by
  have le : tightLimits.AtMost {} := ⟨by decide,by decide,by decide⟩
  obtain ⟨e,accepted⟩ : ∃ e, parse builtinNames tightLimits "Math.Max(2, -(9)) = 9" = .ok e :=
    exists_ok (by decide +kernel)
  have refused : parse builtinNames tightLimits "Math.Max(2, -true)" =
      .error ⟨.unaryMismatch .negate .bool,⟨12,13⟩⟩ := faultOf_eq_some (by decide +kernel)
  refine ⟨le,⟨e,accepted,(parse_wider _ le _).1 e accepted⟩,_,refused,rfl,?_⟩
  exact (parse_wider _ le _).2 _ refused (by decide) (by decide)

end Parser
end TypedFormula
