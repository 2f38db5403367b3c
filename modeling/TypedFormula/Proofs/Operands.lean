import TypedFormula.Proofs.Rebinding

namespace TypedFormula

variable {σ : Type}

namespace Expr

def followed : Expr σ → List (Expr σ)
  | .member (.value target) _ _ => target :: followed target
  | .call (.value target) _ _ _ => target :: followed target
  | .index (.value target) _ _ _ => target :: followed target
  | _ => []

-- The tree that the first of the suffixes follows.
def bottom : Expr σ → Expr σ
  | .member (.value target) _ _ => bottom target
  | .call (.value target) _ _ _ => bottom target
  | .index (.value target) _ _ _ => bottom target
  | e => e

def takesArguments : Expr σ → Bool
  | .call _ _ _ _ => true
  | .index _ _ _ _ => true
  | _ => false

def isOperation : Expr σ → Bool
  | .literal _ _ => true
  | .unary _ _ _ _ => true
  | .binary _ _ _ _ _ => true
  | _ => false

-- No suffix follows a call or an indexer, if not for a literal or an operation at the bottom.
def Holds (operand : Expr σ) : Prop :=
  (∃ e ∈ operand.followed, e.takesArguments = true) → operand.bottom.isOperation = true

def OperandHolds : Expr σ → Prop
  | .unary _ operand _ _ => operand.Holds
  | _ => True

instance (operand : Expr σ) : Decidable operand.Holds :=
  inferInstanceAs (Decidable ((∃ e ∈ operand.followed, e.takesArguments = true) →
    operand.bottom.isOperation = true))

instance (e : Expr σ) : Decidable e.OperandHolds :=
  match e with
  | .unary _ operand _ _ => inferInstanceAs (Decidable operand.Holds)
  | .literal _ _ | .binary _ _ _ _ _ | .member _ _ _ | .call _ _ _ _ | .index _ _ _ _ =>
    inferInstanceAs (Decidable True)

-- Whether the printed tree starts with a group that its suffixes belong to.
def grouped : Expr σ → Bool
  | .binary _ _ _ _ _ => true
  | .member (.value target) _ _ => target.needsParens || grouped target
  | .call (.value target) _ _ _ => target.needsParens || grouped target
  | .index (.value target) _ _ _ => target.needsParens || grouped target
  | _ => false

end Expr

def Receiver.grouped : Receiver (Expr σ) → Bool
  | .value target => target.needsParens || target.grouped
  | _ => false

namespace Expr

theorem grouped_of_receiver {e : Expr σ} {receiver : Receiver (Expr σ)}
    (follows : e.receiver? = some receiver) : e.grouped = receiver.grouped := by
  cases e with
  | literal | unary | binary => cases follows
  | member other | call other | index other =>
    cases follows
    cases receiver <;> rfl

-- An operation starts with a group, or it gets one in front of a suffix.
theorem grouped_of_bottom {e : Expr σ} (operation : e.bottom.isOperation = true) :
    e.needsParens = true ∨ e.grouped = true := by
  have value : ∀ target : Expr σ, target.needsParens = true ∨ target.grouped = true →
      (Receiver.value target).grouped = true := by
    rintro target (parens | group)
    · rw [Receiver.grouped,parens,Bool.true_or]
    · rw [Receiver.grouped,group,Bool.or_true]
  induction e using Expr.induction with
  | literal | unary => exact .inl rfl
  | binary => exact .inr rfl
  | member receiver m span below =>
    cases receiver with
    | context | type => cases operation
    | value target => exact .inr (value target (below target rfl operation))
  | call receiver m args span below =>
    cases receiver with
    | context | type => cases operation
    | value target => exact .inr (value target (below target rfl operation))
  | index receiver ix args span below =>
    cases receiver with
    | context | type => cases operation
    | value target => exact .inr (value target (below target rfl operation))

theorem anchor_of_plain {target : Expr σ} (open' : (Receiver.value target).grouped = false)
    (plain : target.takesArguments = false) (inner : ∀ e ∈ target.followed, e.takesArguments = false) :
    target.anchor = none := by
  induction target using Expr.induction with
  | literal | unary | binary => cases open'
  | call | index => cases plain
  | member receiver m span below =>
    cases receiver with
    | context | type => rfl
    | value x =>
      exact below x rfl open' (inner x List.mem_cons_self) fun e present =>
        inner e (List.mem_cons_of_mem _ present)

theorem anchor_of_holds {e : Expr σ} {receiver : Receiver (Expr σ)}
    (follows : e.receiver? = some receiver) (open' : e.grouped = false) (holds : e.Holds) :
    receiver.anchor = none := by
  cases receiver with
  | context | type => rfl
  | value target =>
    rw [grouped_of_receiver follows] at open'
    have split : e.followed = target :: target.followed ∧ e.bottom = target.bottom := by
      cases e with
      | literal | unary | binary => cases follows
      | member | call | index => cases follows; exact ⟨rfl,rfl⟩
    have plain : ∀ x ∈ e.followed, x.takesArguments = false := by
      intro x present
      by_contra takes
      have operation := holds ⟨x,present,by simpa using takes⟩
      rw [split.2] at operation
      rcases grouped_of_bottom operation with parens | group
      · simp [Receiver.grouped,parens] at open'
      · simp [Receiver.grouped,group] at open'
    rw [split.1] at plain
    exact anchor_of_plain open' (plain target List.mem_cons_self) fun x present =>
      plain x (List.mem_cons_of_mem _ present)

theorem leadKinds_of_anchor {receiver : Receiver (Expr σ)} (rooted : receiver.anchor = none) :
    leadKinds receiver = [] := by
  cases receiver with
  | context | type => rfl
  | value target =>
    induction target using Expr.induction with
    | literal | unary | binary | call | index => cases rooted
    | member receiver m span below =>
      cases receiver with
      | context | type => rfl
      | value x => exact below x rfl rooted

theorem anchor_member (receiver : Receiver (Expr σ)) (m : Member σ) (span : Span) :
    (Expr.member receiver m span).anchor = receiver.anchor := by
  cases receiver <;> rfl

theorem run_induction {p : Expr σ → Prop} {base target : Expr σ} (starts : target.anchor = some base)
    (start : p base) (step : ∀ x m span, p x → p (.member (.value x) m span)) : p target := by
  induction target using Expr.induction with
  | literal | unary | binary | call | index => cases starts; exact start
  | member receiver m span below =>
    cases receiver with
    | context | type => cases starts
    | value x => exact step x m span (below x rfl starts)

-- Induction along the names of a tree: an access is built on the tree that its name goes on from.
@[elab_as_elim]
theorem anchor_induction {motive : Expr σ → Prop} (literal : ∀ value span, motive (.literal value span))
    (unary : ∀ op operand ty span, motive operand → motive (.unary op operand ty span))
    (binary : ∀ op left right ty span, motive left → motive right →
      motive (.binary op left right ty span))
    (member : ∀ receiver m span, (∀ base, receiver.anchor = some base → motive base) →
      motive (.member receiver m span))
    (call : ∀ receiver m args span, (∀ base, receiver.anchor = some base → motive base) →
      (∀ arg ∈ args, motive arg) → motive (.call receiver m args span))
    (index : ∀ receiver ix args span, (∀ base, receiver.anchor = some base → motive base) →
      (∀ arg ∈ args, motive arg) → motive (.index receiver ix args span)) (e : Expr σ) : motive e := by
  induction e using print_induction (fun receiver => ∀ base, receiver.anchor = some base → motive base) with
  | context base starts => cases starts
  | type name base starts => cases starts
  | along receiver m span lead base starts =>
    refine lead base ?_
    rw [Receiver.anchor,anchor_member] at starts
    exact starts
  | base target none holds base starts =>
    rw [Receiver.anchor,anchor_of_path none] at starts
    cases starts
    exact holds
  | literal value span => exact literal value span
  | unary op operand ty span below => exact unary op operand ty span below
  | binary op left right ty span first second => exact binary op left right ty span first second
  | member receiver m span lead => exact member receiver m span lead
  | call receiver m args span lead arguments => exact call receiver m args span lead arguments
  | index receiver ix args span _ lead arguments => exact index receiver ix args span lead arguments

theorem path_of_anchor {e base : Expr σ} (starts : e.anchor = some base) : base.path = [] := by
  unfold anchor at starts
  rcases e.origin_cases with ⟨rootless,none⟩ | ⟨m,span,rooted,_⟩ | ⟨name,m,span,rooted,_⟩
  · rw [rootless] at starts
    cases starts
    exact none
  · rw [rooted] at starts
    cases starts
  · rw [rooted] at starts
    cases starts

theorem leadKinds_of_base {receiver : Receiver (Expr σ)} {base : Expr σ} (starts : receiver.anchor = some base) :
    leadKinds receiver = pointAt base base.kinds := by
  cases receiver with
  | context | type => cases starts
  | value target =>
    apply run_induction (p := fun x => leadKinds (.value x) = pointAt base base.kinds) starts
    · exact leadKinds_of_path (path_of_anchor starts)
    · intro x m span same
      exact same

theorem grouped_of_base {receiver : Receiver (Expr σ)} {base : Expr σ} (starts : receiver.anchor = some base) :
    receiver.grouped = (base.needsParens || base.grouped) := by
  cases receiver with
  | context | type => cases starts
  | value target =>
    apply run_induction (p := fun x => (Receiver.value x).grouped = (base.needsParens || base.grouped)) starts
    · rfl
    · intro x m span same
      exact same

theorem height_of_base {receiver : Receiver (Expr σ)} {base : Expr σ} (starts : receiver.anchor = some base) :
    base.height ≤ receiverHeight receiver := by
  cases receiver with
  | context | type => cases starts
  | value target =>
    apply run_induction (p := fun x => base.height ≤ x.height) starts
    · exact Nat.le_refl _
    · intro x m span le
      exact Nat.le_succ_of_le le

theorem grouped_of_rooted {receiver : Receiver (Expr σ)} (rooted : receiver.anchor = none) :
    receiver.grouped = false := by
  cases receiver with
  | context | type => rfl
  | value target =>
    induction target using Expr.induction with
    | literal | unary | binary | call | index => cases rooted
    | member receiver m span below =>
      cases receiver with
      | context | type => rfl
      | value x => exact below x rfl rooted

end Expr
end TypedFormula
