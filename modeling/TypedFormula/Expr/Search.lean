import TypedFormula.Expr.Preorder

namespace TypedFormula
namespace Expr

variable {σ : Type}

-- Nodes that are yet to be visited, each with its level. The one on top comes next.
abbrev Pending (σ : Type) := List (Nat × Expr σ)

def pushReceiver (level : Nat) (receiver : Receiver (Expr σ)) (pending : Pending σ) : Pending σ :=
  match receiver with
  | .context => pending
  | .type _ => pending
  | .value target => (level,target) :: pending

-- The last argument goes first onto the stack, so the first one is on top.
def pushArgs (level : Nat) (args : List (Expr σ)) (pending : Pending σ) : Pending σ :=
  args.reverse.foldl (fun pending arg => (level,arg) :: pending) pending

def pushChildren (level : Nat) (e : Expr σ) (pending : Pending σ) : Pending σ :=
  match e with
  | .literal _ _ => pending
  | .unary _ operand _ _ => (level,operand) :: pending
  | .binary _ left right _ _ => (level,left) :: (level,right) :: pending
  | .member receiver _ _ => pushReceiver level receiver pending
  | .call receiver _ args _ => pushReceiver level receiver (pushArgs level args pending)
  | .index receiver _ args _ => pushReceiver level receiver (pushArgs level args pending)

def upcoming (pending : Pending σ) : List (Nat × Expr σ) :=
  pending.flatMap fun entry => preorderAt entry.1 entry.2

theorem pushReceiver_eq (level : Nat) (receiver : Receiver (Expr σ)) (pending : Pending σ) :
    pushReceiver level receiver pending = receiver.target?.toList.map (level,·) ++ pending := by
  cases receiver <;> rfl

theorem pushArgs_eq (level : Nat) (args : List (Expr σ)) (pending : Pending σ) :
    pushArgs level args pending = args.map (level,·) ++ pending := by
  rw [pushArgs,List.foldl_reverse]
  induction args with
  | nil => rfl
  | cons arg args ih => rw [List.foldr_cons,ih,List.map_cons,List.cons_append]

theorem pushChildren_eq (level : Nat) (e : Expr σ) (pending : Pending σ) :
    pushChildren level e pending = e.children.map (level,·) ++ pending := by
  cases e with
  | literal | unary | binary => rfl
  | member receiver => exact pushReceiver_eq level receiver pending
  | call receiver _ args | index receiver _ args =>
    rw [pushChildren,pushReceiver_eq,pushArgs_eq,children,List.map_append,List.append_assoc]

-- A step of the search takes one node off what is yet to be visited, and leaves the order of the others.
theorem upcoming_push (level : Nat) (e : Expr σ) (pending : Pending σ) :
    upcoming ((level,e) :: pending) = (level,e) :: upcoming (pushChildren (level + 1) e pending) := by
  rw [upcoming,upcoming,List.flatMap_cons,preorderAt_eq,pushChildren_eq,List.flatMap_append,
    List.flatMap_map,List.cons_append]

def search (limit : Nat) : Pending σ → Option Span
  | [] => none
  | (level,e) :: pending =>
    if limit < level then some e.span
    else search limit (pushChildren (level + 1) e pending)
termination_by pending => (upcoming pending).length
decreasing_by
  rw [upcoming_push,List.length_cons]
  exact Nat.lt_succ_self _

-- The span of the first node that lies more than `limit` levels deep, if there is one. The root is on level 1.
def firstDeeperThan (limit : Nat) (e : Expr σ) : Option Span := search limit [(1,e)]

theorem search_eq (limit : Nat) (pending : Pending σ) :
    search limit pending =
      ((upcoming pending).find? fun entry => decide (limit < entry.1)).map (·.2.span) := by
  fun_induction search limit pending with
  | case1 => rfl
  | case2 level e pending deep => simp only [upcoming_push,List.find?_cons,deep,decide_true,Option.map_some]
  | case3 level e pending shallow ih => simp only [upcoming_push,List.find?_cons,shallow,decide_false,ih]

theorem firstDeeperThan_eq (limit : Nat) (e : Expr σ) :
    e.firstDeeperThan limit =
      ((preorderAt 1 e).find? fun entry => decide (limit < entry.1)).map (·.2.span) := by
  rw [firstDeeperThan,search_eq,upcoming,List.flatMap_singleton]

end Expr
end TypedFormula
