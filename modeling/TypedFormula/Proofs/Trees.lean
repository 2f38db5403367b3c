import TypedFormula.Expr.Search

namespace TypedFormula
namespace Expr

variable {σ : Type}

-- What holds of a node once it holds of the nodes below it holds of every tree.
@[elab_as_elim]
theorem induction {motive : Expr σ → Prop}
    (literal : ∀ value span, motive (.literal value span))
    (unary : ∀ op operand ty span, motive operand → motive (.unary op operand ty span))
    (binary : ∀ op left right ty span, motive left → motive right →
      motive (.binary op left right ty span))
    (member : ∀ receiver m span, (∀ target, receiver = .value target → motive target) →
      motive (.member receiver m span))
    (call : ∀ receiver m args span, (∀ target, receiver = .value target → motive target) →
      (∀ arg ∈ args, motive arg) → motive (.call receiver m args span))
    (index : ∀ receiver ix args span, (∀ target, receiver = .value target → motive target) →
      (∀ arg ∈ args, motive arg) → motive (.index receiver ix args span)) (e : Expr σ) :
    motive e :=
  @Expr.rec σ motive (fun receiver => ∀ target, receiver = .value target → motive target)
    (fun args => ∀ arg ∈ args, motive arg)
    literal unary binary member call index
    (fun _ same => by cases same) (fun _ _ same => by cases same)
    (fun target holds other same => by cases same; exact holds)
    (fun _ present => by cases present)
    (fun first rest head tail arg present => by
      rcases List.mem_cons.mp present with rfl | later
      · exact head
      · exact tail arg later) e

theorem children_induction {motive : Expr σ → Prop}
    (step : ∀ e : Expr σ, (∀ child ∈ e.children, motive child) → motive e) (e : Expr σ) : motive e := by
  have target : ∀ receiver : Receiver (Expr σ), (∀ target, receiver = .value target → motive target) →
      ∀ child ∈ receiver.target?.toList, motive child := by
    intro receiver holds child present
    cases receiver <;> simp [Receiver.target?] at present
    exact holds child (by rw [present])
  induction e using induction with
  | literal => exact step _ (by simp [children])
  | unary _ _ _ _ operand => exact step _ (by simp [children,operand])
  | binary _ _ _ _ _ left right => exact step _ (by simp [children,left,right])
  | member receiver _ _ holds => exact step _ (target receiver holds)
  | call receiver _ args _ holds others =>
    refine step _ fun child present => ?_
    rcases List.mem_append.mp present with first | later
    · exact target receiver holds child first
    · exact others child later
  | index receiver _ args _ holds others =>
    refine step _ fun child present => ?_
    rcases List.mem_append.mp present with first | later
    · exact target receiver holds child first
    · exact others child later

mutual

-- The number of levels; the root is on the first.
def height : Expr σ → Nat
  | .literal _ _ => 1
  | .unary _ operand _ _ => height operand + 1
  | .binary _ left right _ _ => Nat.max (height left) (height right) + 1
  | .member receiver _ _ => receiverHeight receiver + 1
  | .call receiver _ args _ => Nat.max (receiverHeight receiver) (listHeight args) + 1
  | .index receiver _ args _ => Nat.max (receiverHeight receiver) (listHeight args) + 1

def receiverHeight : Receiver (Expr σ) → Nat
  | .context => 0
  | .type _ => 0
  | .value target => height target

def listHeight : List (Expr σ) → Nat
  | [] => 0
  | e :: es => Nat.max (height e) (listHeight es)

end

def nodes (e : Expr σ) : List (Expr σ) := e.preorder.map (·.2)

theorem preorderAt_nodes (depth other : Nat) (e : Expr σ) :
    (preorderAt depth e).map (·.2) = (preorderAt other e).map (·.2) := by
  induction e using children_induction generalizing depth other with
  | step e ih =>
    rw [preorderAt_eq,preorderAt_eq,List.map_cons,List.map_cons,List.map_flatMap,List.map_flatMap]
    refine congrArg (e :: ·) ?_
    rw [List.flatMap_def,List.flatMap_def]
    exact congrArg List.flatten (List.map_congr_left fun child present => ih child present _ _)

theorem nodes_eq (e : Expr σ) : e.nodes = e :: e.children.flatMap nodes := by
  unfold nodes preorder
  rw [preorderAt_eq,List.map_cons,List.map_flatMap]
  refine congrArg (e :: ·) ?_
  rw [List.flatMap_def,List.flatMap_def]
  exact congrArg List.flatten (List.map_congr_left fun child _ => preorderAt_nodes _ _ child)

theorem mem_target {receiver : Receiver (Expr σ)} {x : Expr σ} (is : receiver = .value x) :
    x ∈ receiver.target?.toList := by
  rw [is]
  exact List.mem_singleton_self x

theorem forall_nodes_iff {p : Expr σ → Prop} (e : Expr σ) :
    (∀ node ∈ e.nodes, p node) ↔ p e ∧ ∀ child ∈ e.children, ∀ node ∈ child.nodes, p node := by
  rw [nodes_eq]
  simp only [List.mem_cons,List.mem_flatMap,forall_eq_or_imp]
  constructor
  · rintro ⟨root,below⟩
    exact ⟨root,fun child isChild node present => below node ⟨child,isChild,present⟩⟩
  · rintro ⟨root,below⟩
    exact ⟨root,fun node ⟨child,isChild,present⟩ => below child isChild node present⟩

def TypeChecks : Expr σ → Prop
  | .unary op operand ty _ => op.resultType operand.ty = some ty
  | .binary op left right ty _ => op.resultType left.ty right.ty = some ty
  | _ => True

instance (e : Expr σ) : Decidable e.TypeChecks :=
  match e with
  | .unary op operand ty _ => inferInstanceAs (Decidable (op.resultType operand.ty = some ty))
  | .binary op left right ty _ => inferInstanceAs (Decidable (op.resultType left.ty right.ty = some ty))
  | .literal _ _ | .member _ _ _ | .call _ _ _ _ | .index _ _ _ _ => inferInstanceAs (Decidable True)

theorem height_withSpan (e : Expr σ) (span : Span) : (e.withSpan span).height = e.height := by
  cases e <;> rfl

theorem typeChecks_withSpan (e : Expr σ) (span : Span) : (e.withSpan span).TypeChecks ↔ e.TypeChecks := by
  cases e <;> exact Iff.rfl

theorem receiverHeight_le_iff (receiver : Receiver (Expr σ)) (limit : Nat) :
    receiverHeight receiver ≤ limit ↔ ∀ target ∈ receiver.target?.toList, target.height ≤ limit := by
  cases receiver <;> simp [receiverHeight,Receiver.target?]

theorem listHeight_le_iff (args : List (Expr σ)) (limit : Nat) :
    listHeight args ≤ limit ↔ ∀ arg ∈ args, arg.height ≤ limit := by
  induction args with
  | nil => simp [listHeight]
  | cons e es ih => simp [listHeight,Nat.max_le,ih]

theorem height_pos (e : Expr σ) : 0 < e.height := by
  cases e <;> simp only [height] <;> exact Nat.succ_pos _

theorem height_le_iff_children (e : Expr σ) (limit : Nat) :
    e.height ≤ limit + 1 ↔ ∀ child ∈ e.children, child.height ≤ limit := by
  cases e with
  | literal => simp [height,children]
  | unary => simp [height,children]
  | binary => simp [height,children,Nat.max_le]
  | member receiver => simp [height,children,receiverHeight_le_iff]
  | call receiver m args =>
    simp only [height,children,Nat.add_le_add_iff_right,Nat.max_le,receiverHeight_le_iff,
      listHeight_le_iff,List.forall_mem_append]
  | index receiver ix args =>
    simp only [height,children,Nat.add_le_add_iff_right,Nat.max_le,receiverHeight_le_iff,
      listHeight_le_iff,List.forall_mem_append]

theorem preorderAt_le_iff (level limit : Nat) (e : Expr σ) :
    (∀ entry ∈ preorderAt level e, entry.1 ≤ limit) ↔ e.height + level ≤ limit + 1 := by
  induction e using children_induction generalizing level with
  | step e ih =>
    have positive := e.height_pos
    rw [preorderAt_eq,List.forall_mem_cons,List.forall_mem_flatMap,
      forall₂_congr fun child present => ih child present (level + 1)]
    rcases Nat.lt_or_ge limit level with deep | shallow
    · omega
    · obtain ⟨more,rfl⟩ := Nat.exists_eq_add_of_le shallow
      have lower (child : Expr σ) : child.height + (level + 1) ≤ level + more + 1 ↔ child.height ≤ more := by omega
      have whole : e.height + level ≤ level + more + 1 ↔ e.height ≤ more + 1 := by omega
      rw [whole,height_le_iff_children,and_iff_right shallow]
      exact forall₂_congr fun child _ => lower child

theorem firstDeeperThan_none_iff (limit : Nat) (e : Expr σ) :
    e.firstDeeperThan limit = none ↔ e.height ≤ limit := by
  rw [firstDeeperThan_eq,Option.map_eq_none_iff,List.find?_eq_none]
  simp only [decide_eq_true_eq,Nat.not_lt]
  rw [preorderAt_le_iff,Nat.add_le_add_iff_right]

end Expr
end TypedFormula
