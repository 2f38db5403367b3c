import TypedFormula.Proofs.Trees

namespace TypedFormula

theorem find?_flatMap_congr {α β : Type} {f : α → List β} {p q : β → Bool} {xs : List α}
    (same : ∀ x ∈ xs, (f x).find? p = (f x).find? q) : (xs.flatMap f).find? p = (xs.flatMap f).find? q := by
  induction xs with
  | nil => rfl
  | cons x xs ih =>
    obtain ⟨first,others⟩ := List.forall_mem_cons.mp same
    rw [List.flatMap_cons,List.find?_append,List.find?_append,first,ih others]

namespace Expr

variable {σ : Type}

theorem find?_beyond {level limit : Nat} (e : Expr σ) (within : level ≤ limit + 1) :
    (preorderAt level e).find? (fun entry => decide (limit < entry.1)) =
      (preorderAt level e).find? (fun entry => entry.1 == limit + 1) := by
  induction e using children_induction generalizing level with
  | step e ih =>
    rw [preorderAt_eq]
    rcases Nat.lt_or_eq_of_le within with shallow | reached
    · have notBeyond : ¬limit < level := Nat.not_lt.mpr (Nat.le_of_lt_succ shallow)
      rw [List.find?_cons_of_neg (by simpa using notBeyond),List.find?_cons_of_neg (by simpa using Nat.ne_of_lt shallow)]
      exact find?_flatMap_congr fun child present => ih child present shallow
    · rw [List.find?_cons_of_pos (by simp [reached]),List.find?_cons_of_pos (by simp [reached])]

-- The search for a node that lies too deep always has an answer. It finds none exactly if the tree has no more
-- levels than the limit, and otherwise the node that comes first in reading order among those on the next level.
theorem firstDeeperThan_exact (limit : Nat) (e : Expr σ) :
    (e.firstDeeperThan limit = none ↔ e.height ≤ limit) ∧
    ∀ span, e.firstDeeperThan limit = some span ↔
      ∃ before node behind, preorderAt 1 e = before ++ (limit + 1,node) :: behind ∧
        (∀ entry ∈ before, entry.1 ≠ limit + 1) ∧ node.span = span := by
  refine ⟨firstDeeperThan_none_iff limit e,fun span => ?_⟩
  rw [firstDeeperThan_eq,find?_beyond e (Nat.le_add_left 1 limit),Option.map_eq_some_iff]
  constructor
  · rintro ⟨⟨level,node⟩,found,rfl⟩
    obtain ⟨onLevel,before,behind,whole,earlier⟩ := List.find?_eq_some_iff_append.mp found
    obtain rfl : level = limit + 1 := by simpa using onLevel
    exact ⟨before,node,behind,whole,fun entry present => by simpa using earlier entry present,rfl⟩
  · rintro ⟨before,node,behind,whole,earlier,rfl⟩
    refine ⟨(limit + 1,node),List.find?_eq_some_iff_append.mpr ⟨by simp,before,behind,whole,?_⟩,rfl⟩
    exact fun entry present => by simpa using earlier entry present

end Expr
end TypedFormula
