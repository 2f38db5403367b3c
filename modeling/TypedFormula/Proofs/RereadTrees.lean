import TypedFormula.Proofs.Operands
import TypedFormula.Proofs.WellBound

namespace TypedFormula

theorem Value.reread_ty (v : Value) : v.reread.ty = v.ty := by
  cases v <;> rfl

theorem UnaryOp.resultType_eq {op : UnaryOp} {operand ty : Ty} (typed : op.resultType operand = some ty) :
    ty = operand := by
  cases op <;> unfold resultType at typed <;> dsimp only at typed <;> split at typed <;> cases typed <;> rfl

variable {σ : Type}

-- An access and its receiver are printed as one operand, unless the receiver is one by itself.
def Receiver.joined (receiver : Receiver (Expr σ)) : Bool := receiver.grouped || receiver.anchor.isNone

namespace Expr

def under (ops : List UnaryOp) (x : Expr σ) : Expr σ := ops.foldr (fun op y => .unary op y y.ty y.span) x

mutual

-- The tree that a printed tree stands for with operators in front of it.
@[simp] def rereadUnder (ops : List UnaryOp) : Expr σ → Expr σ
  | .literal v span => under ops (.literal v.reread span)
  | .unary op operand _ _ => rereadUnder (ops ++ [op]) operand
  | .binary op left right ty span =>
    under ops (.binary op (rereadUnder [] left) (rereadUnder [] right) ty span)
  | .member receiver m span =>
    if receiver.joined then under ops (.member (receiverUnder [] receiver) m span)
    else .member (receiverUnder ops receiver) m span
  | .call receiver m args span =>
    if receiver.joined then under ops (.call (receiverUnder [] receiver) m (rereadArgs args) span)
    else .call (receiverUnder ops receiver) m (rereadArgs args) span
  | .index receiver ix args span =>
    if receiver.joined then under ops (.index (receiverUnder [] receiver) ix (rereadArgs args) span)
    else .index (receiverUnder ops receiver) ix (rereadArgs args) span

@[simp] def receiverUnder (ops : List UnaryOp) : Receiver (Expr σ) → Receiver (Expr σ)
  | .context => .context
  | .type name => .type name
  | .value target => .value (rereadUnder ops target)

def rereadArgs : List (Expr σ) → List (Expr σ)
  | [] => []
  | e :: es => rereadUnder [] e :: rereadArgs es

end

def reread (e : Expr σ) : Expr σ := rereadUnder [] e

-- The part of a tree that is printed as its first operand, without operators in front of it.
def heading : Expr σ → Expr σ
  | .unary _ operand _ _ => heading operand
  | .member (.value target) m span =>
    if (Receiver.value target).joined then .member (.value target) m span else heading target
  | .call (.value target) m args span =>
    if (Receiver.value target).joined then .call (.value target) m args span else heading target
  | .index (.value target) ix args span =>
    if (Receiver.value target).joined then .index (.value target) ix args span else heading target
  | e => e

-- A unary operator takes what it is printed in front of.
def Applies : Expr σ → Prop
  | .unary op operand _ _ => (op.resultType operand.heading.ty).isSome = true
  | _ => True

instance (e : Expr σ) : Decidable e.Applies :=
  match e with
  | .unary op operand _ _ => inferInstanceAs (Decidable ((op.resultType operand.heading.ty).isSome = true))
  | .literal _ _ | .binary _ _ _ _ _ | .member _ _ _ | .call _ _ _ _ | .index _ _ _ _ =>
    inferInstanceAs (Decidable True)

theorem under_ty (ops : List UnaryOp) (x : Expr σ) : (under ops x).ty = x.ty := by
  induction ops with
  | nil => rfl
  | cons op ops ih => exact ih

theorem under_append (ops others : List UnaryOp) (x : Expr σ) :
    under (ops ++ others) x = under ops (under others x) := List.foldr_append

variable {scope : Scope σ}

theorem rereadUnder_ty {e : Expr σ} (bound : WellBound scope e) (ops : List UnaryOp) :
    (rereadUnder ops e).ty = e.ty := by
  induction bound generalizing ops with
  | @literal v =>
    rw [rereadUnder,under_ty]
    exact v.reread_ty
  | unary _ typed below =>
    rw [rereadUnder,below]
    exact (UnaryOp.resultType_eq typed).symm
  | binary =>
    rw [rereadUnder,under_ty]
    rfl
  | member | call | index =>
    rw [rereadUnder]
    split
    · rw [under_ty]
      rfl
    · rfl

theorem joined_member (receiver : Receiver (Expr σ)) (m : Member σ) (span : Span) :
    (Receiver.value (.member receiver m span)).joined = receiver.joined := by
  unfold Receiver.joined
  rw [Receiver.anchor,anchor_member,Receiver.grouped,grouped_of_receiver rfl]
  rfl

theorem rereadUnder_onto {target base : Expr σ} (starts : target.anchor = some base) (ops : List UnaryOp)
    (reach : ops = [] ∨ (Receiver.value target).joined = false) :
    rereadUnder ops target = onto (rereadUnder ops base) target := by
  apply run_induction (p := fun x => (ops = [] ∨ (Receiver.value x).joined = false) →
    rereadUnder ops x = onto (rereadUnder ops base) x) starts _ _ reach
  · intro _
    rw [onto_of_path (path_of_anchor starts)]
  · intro x m span below reach
    rw [joined_member] at reach
    rw [onto,← below reach,rereadUnder]
    rcases reach with rfl | apart
    · split <;> rfl
    · rw [apart]
      rfl

theorem reread_rooted {target : Expr σ} (rooted : target.anchor = none) : target.reread = target := by
  induction target using Expr.induction with
  | literal | unary | binary | call | index => cases rooted
  | member receiver m span below =>
    have receives : receiverUnder [] receiver = receiver := by
      cases receiver with
      | context | type => rfl
      | value x => exact congrArg Receiver.value (below x rfl rooted)
    rw [reread,rereadUnder,receives]
    split <;> rfl

theorem receiverUnder_eq (receiver : Receiver (Expr σ)) (ops : List UnaryOp)
    (reach : ops = [] ∨ receiver.joined = false) :
    receiverUnder ops receiver = receiver.upon (receiver.anchor.map (rereadUnder ops)) := by
  cases receiver with
  | context | type => rfl
  | value target =>
    cases starts : target.anchor with
    | some base =>
      rw [receiverUnder,rereadUnder_onto starts ops reach,Receiver.anchor,starts]
      rfl
    | none =>
      have plain : ops = [] := by
        rcases reach with plain | apart
        · exact plain
        · simp [Receiver.joined,Receiver.anchor,starts] at apart
      rw [plain,receiverUnder,show rereadUnder [] target = target from reread_rooted starts,
        Receiver.anchor,starts]
      rfl

-- Whether a tree is printed as a single operand.
def whole : Expr σ → Bool
  | .unary _ operand _ _ => whole operand
  | .member receiver _ _ => receiver.joined
  | .call receiver _ _ _ => receiver.joined
  | .index receiver _ _ _ => receiver.joined
  | _ => true

-- Operators in front of a single operand apply to all of it.
theorem rereadUnder_whole {e : Expr σ} (single : e.whole = true) (ops : List UnaryOp) :
    rereadUnder ops e = under ops e.reread := by
  induction e using Expr.induction generalizing ops with
  | literal | binary => rfl
  | unary op operand ty span below =>
    rw [reread,rereadUnder,rereadUnder,below single,below single,List.nil_append,under_append]
  | member receiver | call receiver | index receiver =>
    have joined : receiver.joined = true := single
    rw [reread,rereadUnder,rereadUnder,if_pos joined,if_pos joined]
    rfl

theorem heading_ty {e : Expr σ} (bound : WellBound scope e) (single : e.whole = true) :
    e.heading.ty = e.ty := by
  induction bound with
  | literal | binary => rfl
  | unary _ typed below =>
    rw [heading,below single]
    exact (UnaryOp.resultType_eq typed).symm
  | @member receiver =>
    cases receiver with
    | context | type => rfl
    | value target => rw [heading,if_pos (show (Receiver.value target).joined = true from single)]
  | @call receiver =>
    cases receiver with
    | context | type => rfl
    | value target => rw [heading,if_pos (show (Receiver.value target).joined = true from single)]
  | @index receiver =>
    cases receiver with
    | context | type => rfl
    | value target => rw [heading,if_pos (show (Receiver.value target).joined = true from single)]

theorem whole_of_holds {e : Expr σ} (holds : e.Holds) (inner : ∀ node ∈ e.nodes, node.OperandHolds) :
    e.whole = true := by
  have access : ∀ {x : Expr σ} {receiver : Receiver (Expr σ)}, x.receiver? = some receiver → x.Holds →
      receiver.joined = true := by
    intro x receiver follows holds
    unfold Receiver.joined
    by_cases group : x.grouped = true
    · rw [← grouped_of_receiver follows,group,Bool.true_or]
    · rw [anchor_of_holds follows (Bool.eq_false_iff.mpr group) holds,Option.isNone_none,Bool.or_true]
  induction e using Expr.induction with
  | literal | binary => rfl
  | unary op operand ty span below =>
    obtain ⟨here,there⟩ := (forall_nodes_iff _).mp inner
    exact below here (there operand (by simp [children]))
  | member receiver | call receiver | index receiver => exact access rfl holds

theorem whole_of_grouped {e : Expr σ} (group : e.grouped = true) : e.whole = true := by
  have joined : ∀ {receiver : Receiver (Expr σ)}, e.receiver? = some receiver → receiver.joined = true := by
    intro receiver follows
    rw [grouped_of_receiver follows] at group
    rw [Receiver.joined,group,Bool.true_or]
  cases e with
  | literal | unary => cases group
  | binary => rfl
  | member | call | index => exact joined rfl

def accessUpon (shape : Option (Expr σ)) : Expr σ → Expr σ
  | .member receiver m span => .member (receiver.upon shape) m span
  | .call receiver m args span => .call (receiver.upon shape) m (rereadArgs args) span
  | .index receiver ix args span => .index (receiver.upon shape) ix (rereadArgs args) span
  | e => e

theorem reread_access {e : Expr σ} {receiver : Receiver (Expr σ)} (follows : e.receiver? = some receiver) :
    e.reread = e.accessUpon (receiver.anchor.map (rereadUnder [])) := by
  have same := receiverUnder_eq receiver [] (.inl rfl)
  cases e with
  | literal | unary | binary => cases follows
  | member | call | index =>
    cases follows
    rw [reread,rereadUnder,same]
    split <;> rfl

theorem rereadUnder_apart {e : Expr σ} {receiver : Receiver (Expr σ)}
    (follows : e.receiver? = some receiver) (apart : receiver.joined = false) (ops : List UnaryOp) :
    rereadUnder ops e = e.accessUpon (receiver.anchor.map (rereadUnder ops)) := by
  have same := receiverUnder_eq receiver ops (.inr apart)
  cases e with
  | literal | unary | binary => cases follows
  | member | call | index =>
    cases follows
    rw [rereadUnder,apart,if_neg Bool.false_ne_true,same]
    rfl

-- The first operand of an access that is none by itself is the first operand of what its name goes on from.
theorem heading_apart {e base : Expr σ} {receiver : Receiver (Expr σ)} (follows : e.receiver? = some receiver)
    (starts : receiver.anchor = some base) (apart : receiver.joined = false) : e.heading = base.heading := by
  cases receiver with
  | context | type => cases starts
  | value target =>
    have inner : target.heading = base.heading := by
      apply run_induction (p := fun x => (Receiver.value x).joined = false → x.heading = base.heading) starts _ _ apart
      · intro _
        rfl
      · intro x m span below apart
        rw [joined_member] at apart
        rw [heading,apart,if_neg Bool.false_ne_true]
        exact below apart
    cases e with
    | literal | unary | binary => cases follows
    | member | call | index =>
      cases follows
      rw [heading,apart,if_neg Bool.false_ne_true]
      exact inner

theorem rereadArgs_types {args : List (Expr σ)} (bound : ∀ arg ∈ args, WellBound scope arg) :
    (rereadArgs args).map Expr.ty = args.map Expr.ty := by
  induction args with
  | nil => rfl
  | cons e es ih =>
    rw [rereadArgs,List.map_cons,List.map_cons,rereadUnder_ty (bound e List.mem_cons_self),
      ih fun other present => bound other (List.mem_cons_of_mem _ present)]

variable {lit : Value → Value → Prop}

theorem receiver_reread {receiver : Receiver (Expr σ)}
    (below : ∀ target, receiver = .value target → Alike lit target target.reread) :
    ReceiversAlike lit receiver (receiverUnder [] receiver) := by
  cases receiver with
  | context => trivial
  | type => exact rfl
  | value target => exact below target rfl

theorem args_reread {args : List (Expr σ)} (below : ∀ arg ∈ args, Alike lit arg arg.reread) :
    ListsAlike lit args (rereadArgs args) := by
  induction args with
  | nil => trivial
  | cons e es ih =>
    exact ⟨below e List.mem_cons_self,ih fun other present => below other (List.mem_cons_of_mem _ present)⟩

theorem alike_reread {e : Expr σ} (bound : WellBound scope e)
    (literals : ∀ v, e.HasLiteral v → lit v v.reread) (operands : ∀ node ∈ e.nodes, node.OperandHolds) :
    Alike lit e e.reread := by
  induction e using children_induction with
  | step e ih =>
    obtain ⟨here,there⟩ := (forall_nodes_iff _).mp operands
    have each : ∀ child ∈ e.children, Alike lit child child.reread := fun child isChild =>
      ih child isChild (bound.child isChild) (fun v has => literals v (has.below child isChild))
        (there child isChild)
    have receives : ∀ receiver : Receiver (Expr σ), (∀ child ∈ receiver.target?.toList, child ∈ e.children) →
        ReceiversAlike lit receiver (receiverUnder [] receiver) := by
      intro receiver among
      refine receiver_reread fun target same => each target (among target ?_)
      rw [same]
      exact List.mem_cons_self
    cases e with
    | literal v span => exact literals v ⟨_,by rw [nodes_eq]; exact List.mem_cons_self,span,rfl⟩
    | unary op operand ty span =>
      have isChild : operand ∈ (Expr.unary op operand ty span).children := List.mem_cons_self
      -- The operand is a single one, so the operator stays where it is.
      rw [reread,rereadUnder,rereadUnder_whole (whole_of_holds here (there operand isChild))]
      refine ⟨rfl,?_,each operand isChild⟩
      change ty = (rereadUnder [] operand).ty
      rw [rereadUnder_ty (bound.child isChild)]
      cases bound with
      | unary _ typed => exact UnaryOp.resultType_eq typed
    | binary op left right ty span =>
      exact ⟨rfl,rfl,each left (by simp [children]),each right (by simp [children])⟩
    | member receiver m span =>
      have alike := receives receiver fun child isChild => isChild
      rw [reread,rereadUnder]
      split <;> exact ⟨rfl,alike⟩
    | call receiver m args span =>
      have alike := receives receiver fun child isChild => List.mem_append_left _ isChild
      have arguments := args_reread fun arg present => each arg (List.mem_append_right _ present)
      rw [reread,rereadUnder]
      split <;> exact ⟨rfl,alike,arguments⟩
    | index receiver ix args span =>
      have alike := receives receiver fun child isChild => List.mem_append_left _ isChild
      have arguments := args_reread fun arg present => each arg (List.mem_append_right _ present)
      rw [reread,rereadUnder]
      split <;> exact ⟨rfl,alike,arguments⟩

theorem applies_of_holds {e : Expr σ} (bound : WellBound scope e)
    (operands : ∀ node ∈ e.nodes, node.OperandHolds) : ∀ node ∈ e.nodes, node.Applies := by
  induction e using children_induction with
  | step e ih =>
    obtain ⟨here,there⟩ := (forall_nodes_iff _).mp operands
    rw [forall_nodes_iff]
    refine ⟨?_,fun child isChild => ih child isChild (bound.child isChild) (there child isChild)⟩
    cases bound with
    | literal | binary | member | call | index => trivial
    | @unary op operand ty span below typed =>
      have single := whole_of_holds here (there operand List.mem_cons_self)
      change (op.resultType operand.heading.ty).isSome = true
      rw [heading_ty below single,typed]
      rfl

end Expr
end TypedFormula
