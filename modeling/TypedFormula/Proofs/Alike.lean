import TypedFormula.Expr.Print
import TypedFormula.Proofs.Trees

namespace TypedFormula
namespace Expr

variable {σ : Type}

mutual

@[simp] def Alike (lit : Value → Value → Prop) : Expr σ → Expr σ → Prop
  | .literal v _, .literal w _ => lit v w
  | .unary op x ty _, .unary other y ty' _ => op = other ∧ ty = ty' ∧ Alike lit x y
  | .binary op x₁ x₂ ty _, .binary other y₁ y₂ ty' _ =>
    op = other ∧ ty = ty' ∧ Alike lit x₁ y₁ ∧ Alike lit x₂ y₂
  | .member x m _, .member y n _ => m = n ∧ ReceiversAlike lit x y
  | .call x m xs _, .call y n ys _ => m = n ∧ ReceiversAlike lit x y ∧ ListsAlike lit xs ys
  | .index x i xs _, .index y j ys _ => i = j ∧ ReceiversAlike lit x y ∧ ListsAlike lit xs ys
  | _, _ => False

@[simp] def ReceiversAlike (lit : Value → Value → Prop) : Receiver (Expr σ) → Receiver (Expr σ) → Prop
  | .context, .context => True
  | .type a, .type b => a = b
  | .value x, .value y => Alike lit x y
  | _, _ => False

@[simp] def ListsAlike (lit : Value → Value → Prop) : List (Expr σ) → List (Expr σ) → Prop
  | [], [] => True
  | x :: xs, y :: ys => Alike lit x y ∧ ListsAlike lit xs ys
  | _, _ => False

end

variable {lit other : Value → Value → Prop}

theorem ListsAlike.map_eq {α : Type} {f : Expr σ → α} {xs ys : List (Expr σ)} (alike : ListsAlike lit xs ys)
    (agrees : ∀ x ∈ xs, ∀ y, Alike lit x y → f x = f y) : xs.map f = ys.map f := by
  induction xs generalizing ys with
  | nil =>
    cases ys with
    | nil => rfl
    | cons => exact alike.elim
  | cons x xs ih =>
    cases ys with
    | nil => exact alike.elim
    | cons y ys =>
      rw [List.map_cons,List.map_cons,agrees x List.mem_cons_self y alike.1,
        ih alike.2 fun other present => agrees other (List.mem_cons_of_mem _ present)]

theorem Alike.withSpan {x y : Expr σ} (alike : Alike lit x y) (span : Span) : Alike lit x (y.withSpan span) := by
  cases x <;> cases y <;> exact alike

theorem Alike.ty {x y : Expr σ} (keeps : ∀ v w, lit v w → v.ty = w.ty) (alike : Alike lit x y) :
    x.ty = y.ty := by
  cases x <;> cases y <;> simp only [Alike] at alike
  · exact keeps _ _ alike
  · exact alike.2.1
  · exact alike.2.1
  · rw [Expr.ty,Expr.ty,alike.1]
  · rw [Expr.ty,Expr.ty,alike.1]
  · rw [Expr.ty,Expr.ty,alike.1]

theorem ReceiversAlike.height_eq {x y : Receiver (Expr σ)} (alike : ReceiversAlike lit x y)
    (below : ∀ target, x = .value target → ∀ e, Alike lit target e → target.height = e.height) :
    receiverHeight x = receiverHeight y := by
  cases x <;> cases y <;> simp only [ReceiversAlike] at alike
  · rfl
  · rfl
  · exact below _ rfl _ alike

theorem listHeight_eq (xs : List (Expr σ)) : listHeight xs = (xs.map Expr.height).foldr Nat.max 0 := by
  induction xs with
  | nil => rfl
  | cons x xs ih => rw [listHeight,ih,List.map_cons,List.foldr_cons]

theorem Alike.height {x y : Expr σ} (alike : Alike lit x y) : x.height = y.height := by
  induction x using Expr.induction generalizing y with
  | literal => cases y <;> simp only [Alike] at alike; rfl
  | unary op operand ty span below =>
    cases y <;> simp only [Alike] at alike
    rw [Expr.height,Expr.height,below alike.2.2]
  | binary op left right ty span first second =>
    cases y <;> simp only [Alike] at alike
    rw [Expr.height,Expr.height,first alike.2.2.1,second alike.2.2.2]
  | member receiver m span below =>
    cases y <;> simp only [Alike] at alike
    rw [Expr.height,Expr.height,alike.2.height_eq fun target same e => below target same]
  | call receiver m args span below arguments =>
    cases y <;> simp only [Alike] at alike
    rw [Expr.height,Expr.height,alike.2.1.height_eq fun target same e => below target same,listHeight_eq,
      listHeight_eq,alike.2.2.map_eq fun x present y => arguments x present]
  | index receiver ix args span below arguments =>
    cases y <;> simp only [Alike] at alike
    rw [Expr.height,Expr.height,alike.2.1.height_eq fun target same e => below target same,listHeight_eq,
      listHeight_eq,alike.2.2.map_eq fun x present y => arguments x present]

theorem printArgs_eq (args : List (Expr σ)) : printArgs args = ", ".intercalate (args.map print) := by
  induction args with
  | nil => rfl
  | cons e es ih =>
    cases es with
    | nil => rw [printArgs,List.map_cons,List.map_nil,String.intercalate_singleton]
    | cons next others =>
      rw [printArgs,ih,List.map_cons,List.map_cons,List.map_cons,String.intercalate_cons_cons]
      exact List.cons_ne_nil _ _

theorem Alike.needsParens {x y : Expr σ} (alike : Alike lit x y) : x.needsParens = y.needsParens := by
  cases x <;> cases y <;> first | rfl | exact alike.elim

theorem ReceiversAlike.print {x y : Receiver (Expr σ)} (alike : ReceiversAlike lit x y)
    (below : ∀ target, x = .value target → ∀ e, Alike lit target e → target.print = e.print) :
    printReceiver x = printReceiver y ∧ printTarget x = printTarget y := by
  cases x <;> cases y <;> simp only [ReceiversAlike] at alike
  · exact ⟨rfl,rfl⟩
  · rw [alike]
    exact ⟨rfl,rfl⟩
  · rw [printReceiver,printReceiver,printTarget,printTarget,below _ rfl _ alike,alike.needsParens]
    exact ⟨rfl,rfl⟩

theorem Alike.print {x y : Expr σ} (keeps : ∀ v w, lit v w → literalText v = literalText w)
    (alike : Alike lit x y) : x.print = y.print := by
  induction x using Expr.induction generalizing y with
  | literal => cases y <;> simp only [Alike] at alike; exact keeps _ _ alike
  | unary op operand ty span below =>
    cases y <;> simp only [Alike] at alike
    rw [Expr.print,Expr.print,below alike.2.2,alike.1]
  | binary op left right ty span first second =>
    cases y <;> simp only [Alike] at alike
    rw [Expr.print,Expr.print,first alike.2.2.1,second alike.2.2.2,alike.1]
  | member receiver m span below =>
    cases y <;> simp only [Alike] at alike
    rw [Expr.print,Expr.print,(alike.2.print fun target same e => below target same).1,alike.1]
  | call receiver m args span below arguments =>
    cases y <;> simp only [Alike] at alike
    rw [Expr.print,Expr.print,(alike.2.1.print fun target same e => below target same).1,alike.1,
      printArgs_eq,printArgs_eq,alike.2.2.map_eq fun x present y => arguments x present]
  | index receiver ix args span below arguments =>
    cases y <;> simp only [Alike] at alike
    rw [Expr.print,Expr.print,(alike.2.1.print fun target same e => below target same).2,
      printArgs_eq,printArgs_eq,alike.2.2.map_eq fun x present y => arguments x present]

def HasLiteral (e : Expr σ) (v : Value) : Prop := ∃ node ∈ e.nodes, ∃ span, node = .literal v span

theorem HasLiteral.below {e : Expr σ} {v : Value} (child : Expr σ) (isChild : child ∈ e.children)
    (has : child.HasLiteral v) : e.HasLiteral v := by
  obtain ⟨node,present,is⟩ := has
  refine ⟨node,?_,is⟩
  rw [nodes_eq]
  exact List.mem_cons_of_mem _ (List.mem_flatMap.mpr ⟨child,isChild,present⟩)

theorem ReceiversAlike.refl {receiver : Receiver (Expr σ)}
    (below : ∀ target, receiver = .value target → Alike lit target target) :
    ReceiversAlike lit receiver receiver := by
  cases receiver with
  | context => trivial
  | type => exact rfl
  | value target => exact below target rfl

theorem ListsAlike.refl {xs : List (Expr σ)} (below : ∀ x ∈ xs, Alike lit x x) : ListsAlike lit xs xs := by
  induction xs with
  | nil => trivial
  | cons x xs ih =>
    exact ⟨below x List.mem_cons_self,ih fun other present => below other (List.mem_cons_of_mem _ present)⟩

theorem Alike.refl (same : ∀ v, lit v v) (x : Expr σ) : Alike lit x x := by
  induction x using Expr.induction with
  | literal v => exact same v
  | unary op operand ty span below => exact ⟨rfl,rfl,below⟩
  | binary op left right ty span first second => exact ⟨rfl,rfl,first,second⟩
  | member receiver m span below => exact ⟨rfl,.refl below⟩
  | call receiver m args span below arguments => exact ⟨rfl,.refl below,.refl arguments⟩
  | index receiver ix args span below arguments => exact ⟨rfl,.refl below,.refl arguments⟩

theorem ReceiversAlike.trans {next whole : Value → Value → Prop} {x y z : Receiver (Expr σ)}
    (one : ReceiversAlike lit x y) (two : ReceiversAlike next y z)
    (below : ∀ target, x = .value target → ∀ a b, Alike lit target a → Alike next a b → Alike whole target b) :
    ReceiversAlike whole x z := by
  cases x <;> cases y <;> simp only [ReceiversAlike] at one <;> cases z <;>
    simp only [ReceiversAlike] at two ⊢
  · exact one.trans two
  · exact below _ rfl _ _ one two

theorem ListsAlike.trans {next whole : Value → Value → Prop} {xs ys zs : List (Expr σ)}
    (one : ListsAlike lit xs ys) (two : ListsAlike next ys zs)
    (below : ∀ x ∈ xs, ∀ a b, Alike lit x a → Alike next a b → Alike whole x b) : ListsAlike whole xs zs := by
  induction xs generalizing ys zs with
  | nil =>
    cases ys with
    | nil => cases zs <;> exact two
    | cons => exact one.elim
  | cons x xs ih =>
    cases ys with
    | nil => exact one.elim
    | cons y ys =>
      cases zs with
      | nil => exact two.elim
      | cons z zs =>
        exact ⟨below x List.mem_cons_self y z one.1 two.1,
          ih one.2 two.2 fun other present => below other (List.mem_cons_of_mem _ present)⟩

theorem Alike.trans {next whole : Value → Value → Prop} (join : ∀ u v w, lit u v → next v w → whole u w)
    {x y z : Expr σ} (one : Alike lit x y) (two : Alike next y z) : Alike whole x z := by
  induction x using Expr.induction generalizing y z with
  | literal =>
    cases y <;> simp only [Alike] at one
    cases z <;> simp only [Alike] at two
    exact join _ _ _ one two
  | unary op operand ty span below =>
    cases y <;> simp only [Alike] at one
    cases z <;> simp only [Alike] at two
    exact ⟨one.1.trans two.1,one.2.1.trans two.2.1,below one.2.2 two.2.2⟩
  | binary op left right ty span first second =>
    cases y <;> simp only [Alike] at one
    cases z <;> simp only [Alike] at two
    exact ⟨one.1.trans two.1,one.2.1.trans two.2.1,first one.2.2.1 two.2.2.1,second one.2.2.2 two.2.2.2⟩
  | member receiver m span below =>
    cases y <;> simp only [Alike] at one
    cases z <;> simp only [Alike] at two
    exact ⟨one.1.trans two.1,one.2.trans two.2 fun target same _ _ => below target same⟩
  | call receiver m args span below arguments =>
    cases y <;> simp only [Alike] at one
    cases z <;> simp only [Alike] at two
    exact ⟨one.1.trans two.1,one.2.1.trans two.2.1 fun target same _ _ => below target same,
      one.2.2.trans two.2.2 fun arg present _ _ => arguments arg present⟩
  | index receiver ix args span below arguments =>
    cases y <;> simp only [Alike] at one
    cases z <;> simp only [Alike] at two
    exact ⟨one.1.trans two.1,one.2.1.trans two.2.1 fun target same _ _ => below target same,
      one.2.2.trans two.2.2 fun arg present _ _ => arguments arg present⟩

end Expr
end TypedFormula
