import TypedFormula.Proofs.EvaluationSteps
import TypedFormula.Proofs.PrintedTokens
import TypedFormula.Proofs.Rereading
import TypedFormula.Proofs.SpanNesting

namespace TypedFormula

variable {σ α : Type}

inductive Arithmetic where
  | add
  | subtract
  | multiply
  | divide
deriving DecidableEq

namespace Arithmetic

def op : Arithmetic → BinaryOp
  | .add => .add
  | .subtract => .subtract
  | .multiply => .multiply
  | .divide => .divide

def isFactor : Arithmetic → Bool
  | .multiply | .divide => true
  | .add | .subtract => false

-- The result modulo 2^32 in the signed range. Quotients are rounded toward zero.
def on (a : Arithmetic) (x y : Int) : Int :=
  match a with
  | .add => (x + y).bmod (2 ^ 32)
  | .subtract => (x - y).bmod (2 ^ 32)
  | .multiply => (x * y).bmod (2 ^ 32)
  | .divide => (x.tdiv y).bmod (2 ^ 32)

theorem layer_op (a : Arithmetic) : a.op.layer = if a.isFactor then 1 else 2 := by
  cases a <;> rfl

end Arithmetic

structure Numeral where
  value : Nat
  span : Span
  fits : value ≤ maxInt

structure Linked (α : Type) where
  sign : Arithmetic
  place : Span
  operand : α

def Linked.dividesByZero (link : Linked Numeral) : Bool := link.sign = .divide && link.operand.value = 0

theorem Linked.dividesByZero_iff (link : Linked Numeral) :
    link.dividesByZero = true ↔ link.sign = .divide ∧ (link.operand.value : Int) = 0 := by
  simp [dividesByZero]

structure Chain (α : Type) where
  first : α
  links : List (Linked α)

namespace Chain

def operands (chain : Chain α) : List α := chain.first :: chain.links.map (·.operand)

def value (of : α → Int) (chain : Chain α) : Int :=
  chain.links.foldl (fun x link => link.sign.on x (of link.operand)) (of chain.first)

def height (of : α → Nat) (chain : Chain α) : Nat :=
  chain.links.foldl (fun n link => max n (of link.operand) + 1) (of chain.first)

def tokens (of : α → List Token) (chain : Chain α) : List Token :=
  of chain.first ++ chain.links.flatMap fun link => ⟨link.sign.op.kind,link.place⟩ :: of link.operand

def total (chain : Chain Numeral) : Int := chain.value fun n => n.value

-- The numbers of a chain in maximal runs of factors.
def runs (first : Numeral) : List (Linked Numeral) → Chain (Chain Numeral)
  | [] => ⟨⟨first,[]⟩,[]⟩
  | link :: links =>
    let others := runs link.operand links
    if link.sign.isFactor then ⟨⟨first,link :: others.first.links⟩,others.links⟩
    else ⟨⟨first,[]⟩,⟨link.sign,link.place,others.first⟩ :: others.links⟩

-- Where a run fails: from its first number to the first zero that it divides by.
def failure? (run : Chain Numeral) : Option Span :=
  (run.links.find? Linked.dividesByZero).map fun link => ⟨run.first.span.start,link.operand.span.stop⟩

end Chain

def Numeral.token (n : Numeral) : Token := ⟨.int (Int32.ofNat n.value),n.span⟩

def Numeral.tree (n : Numeral) : Expr σ := .literal (.int (Int32.ofNat n.value)) n.span

def Arithmetic.joins (a : Arithmetic) (x y : Expr σ) : Expr σ := .binary a.op x y .int (x.span.union y.span)

def Chain.tree (of : α → Expr σ) (chain : Chain α) : Expr σ :=
  chain.links.foldl (fun x link => link.sign.joins x (of link.operand)) (of chain.first)

namespace Chain

variable {first : Numeral} {links : List (Linked Numeral)}

theorem runs_first (first : Numeral) (links : List (Linked Numeral)) : (runs first links).first.first = first := by
  cases links with
  | nil => rfl
  | cons link links =>
    unfold runs
    dsimp only
    split <;> rfl

theorem runs_tokens (first : Numeral) (links : List (Linked Numeral)) :
    (runs first links).tokens (tokens fun n => [n.token]) = (⟨first,links⟩ : Chain Numeral).tokens fun n => [n.token] := by
  induction links generalizing first with
  | nil => rfl
  | cons link links ih =>
    have rest := ih link.operand
    have begins := runs_first link.operand links
    unfold runs
    dsimp only
    split
    all_goals
      simp only [tokens,begins,List.flatMap_cons,List.flatMap_nil,List.append_nil,List.cons_append,List.nil_append,
        List.cons.injEq,true_and] at rest ⊢
      exact rest

-- The numbers of a run lie one behind the other, with factors alone between them.
structure IsRun (run : Chain Numeral) : Prop where
  factors : ∀ link ∈ run.links, link.sign.isFactor = true
  filled : run.first.span.start ≤ run.first.span.stop
  row : ∃ b, Row (fun link => link.operand.span) run.first.span.stop run.links b

theorem isRun_runs {b : Nat} (filled : first.span.start ≤ first.span.stop)
    (row : Row (fun link => link.operand.span) first.span.stop links b) :
    IsRun (runs first links).first ∧
      ∀ link ∈ (runs first links).links, link.sign.isFactor = false ∧ IsRun link.operand := by
  induction links generalizing first with
  | nil => exact ⟨⟨List.forall_mem_nil _,filled,_,rfl⟩,List.forall_mem_nil _⟩
  | cons link links ih =>
    obtain ⟨starts,ordered,rest⟩ := row
    obtain ⟨run,others⟩ := ih ordered rest
    unfold runs
    dsimp only
    split
    · rename_i isFactor
      obtain ⟨factors,_,stop,further⟩ := run
      rw [runs_first] at further
      exact ⟨⟨List.forall_mem_cons.mpr ⟨isFactor,factors⟩,filled,stop,starts,ordered,further⟩,others⟩
    · rename_i noFactor
      refine ⟨⟨List.forall_mem_nil _,filled,_,rfl⟩,List.forall_mem_cons.mpr ⟨⟨?_,run⟩,others⟩⟩
      exact Bool.eq_false_iff.mpr noFactor

theorem failure_none_iff (run : Chain Numeral) :
    run.failure? = none ↔ ∀ link ∈ run.links, link.dividesByZero = false := by
  simp [failure?]

theorem dividesByZero_runs (first : Numeral) (links : List (Linked Numeral)) :
    (∀ run ∈ (runs first links).operands, ∀ link ∈ run.links, link.dividesByZero = false) ↔
      ∀ link ∈ links, link.dividesByZero = false := by
  induction links generalizing first with
  | nil => simp [runs,operands]
  | cons link links ih =>
    have rest := ih link.operand
    unfold runs
    dsimp only
    split
    · simp only [operands,List.forall_mem_cons] at rest ⊢
      rw [and_assoc,rest]
    · rename_i noFactor
      have fine : link.dividesByZero = false := by
        unfold Linked.dividesByZero
        cases sign : link.sign <;> simp [sign,Arithmetic.isFactor] at noFactor ⊢
      simp only [operands,List.map_cons,List.forall_mem_cons,fine,true_and] at rest ⊢
      simpa using rest

end Chain

-- A tree that comes to an int, or fails at a division by zero, and leaves the host as it is.
def Expr.Settles (e : Expr σ) : Option Span → Int → Prop
  | none, value => ∀ context state, ∃ n : Int32, n.toInt = value ∧ e.evaluate context state = .ok (.int n) state
  | some span, _ => ∀ context state, e.evaluate context state = .error ⟨.divisionByZero,span⟩ state

theorem Numeral.toInt_ofNat (n : Numeral) : (Int32.ofNat n.value).toInt = n.value := by
  have fits := n.fits
  unfold maxInt at fits
  exact Int32.toInt_ofNat_of_lt (by omega)

theorem Numeral.settles (n : Numeral) : (n.tree : Expr σ).Settles none n.value :=
  fun _ _ => ⟨_,n.toInt_ofNat,rfl⟩

theorem Arithmetic.apply_ints (a : Arithmetic) {m n : Int32} (small : a = .divide → 0 ≤ n.toInt) :
    if a = .divide ∧ n.toInt = 0 then a.op.apply (.int m) (.int n) = .error .divisionByZero
    else ∃ k : Int32, k.toInt = a.on m.toInt n.toInt ∧ a.op.apply (.int m) (.int n) = .ok (.int k) := by
  have zero : n = 0 ↔ n.toInt = 0 := by rw [← Int32.toInt_zero,Int32.toInt_inj]
  split
  · rename_i divides
    obtain ⟨rfl,isZero⟩ := divides
    exact if_pos (zero.mpr isZero)
  · rename_i other
    cases a with
    | add => exact ⟨m + n,Int32.toInt_add m n,rfl⟩
    | subtract => exact ⟨m - n,Int32.toInt_sub m n,rfl⟩
    | multiply => exact ⟨m * n,Int32.toInt_mul m n,rfl⟩
    | divide =>
      have noZero : n ≠ 0 := fun is => other ⟨rfl,zero.mp is⟩
      have noSign : ¬(m = leastInt ∧ n = -1) := by
        rintro ⟨_,rfl⟩
        exact absurd (small rfl) (by decide)
      exact ⟨m / n,Int32.toInt_div m n,(if_neg noZero).trans (if_neg noSign)⟩

theorem Arithmetic.evaluate_joins (a : Arithmetic) (x y : Expr σ) (context : Option Object) :
    (a.joins x y).evaluate context = x.evaluate context >>= fun value =>
      y.evaluate context >>= fun other => .ofExcept (x.span.union y.span) (a.op.apply value other) := by
  rw [joins,Expr.evaluate]

theorem Expr.Settles.joins {x y : Expr σ} {f g : Option Span} {v w : Int} {a : Arithmetic}
    (left : x.Settles f v) (right : y.Settles g w) (small : a = .divide → 0 ≤ w) :
    (a.joins x y).Settles (f.or (g.or (if a = .divide ∧ w = 0 then some (x.span.union y.span) else none)))
      (a.on v w) := by
  cases f with
  | some span =>
    intro context state
    rw [a.evaluate_joins]
    exact bind_fails.mpr (.inl (left context state))
  | none =>
    cases g with
    | some span =>
      intro context state
      obtain ⟨m,_,first⟩ := left context state
      rw [a.evaluate_joins]
      exact bind_fails.mpr (.inr ⟨_,_,first,bind_fails.mpr (.inl (right context state))⟩)
    | none =>
      rw [Option.none_or,Option.none_or]
      -- Both operands have values, so only the operator itself can fail.
      by_cases zero : a = .divide ∧ w = 0
      · rw [if_pos zero]
        intro context state
        obtain ⟨m,rfl,first⟩ := left context state
        obtain ⟨n,rfl,second⟩ := right context state
        have applied := a.apply_ints (m := m) small
        rw [if_pos zero] at applied
        rw [a.evaluate_joins]
        refine bind_fails.mpr (.inr ⟨_,_,first,bind_fails.mpr (.inr ⟨_,_,second,?_⟩)⟩)
        rw [applied]
        rfl
      · rw [if_neg zero]
        intro context state
        obtain ⟨m,rfl,first⟩ := left context state
        obtain ⟨n,rfl,second⟩ := right context state
        have applied := a.apply_ints (m := m) small
        rw [if_neg zero] at applied
        obtain ⟨k,is,result⟩ := applied
        refine ⟨k,is,?_⟩
        rw [a.evaluate_joins]
        refine bind_succeeds.mpr ⟨_,_,first,bind_succeeds.mpr ⟨_,_,second,?_⟩⟩
        rw [result]
        rfl

theorem Expr.Settles.factors {x : Expr σ} {f : Option Span} {v : Int} {links : List (Linked Numeral)} {b : Nat}
    (settles : x.Settles f v) (filled : x.span.start ≤ x.span.stop)
    (row : Row (fun link => link.operand.span) x.span.stop links b) :
    Expr.Settles (links.foldl (fun x link => link.sign.joins x link.operand.tree) x)
      (f.or ((links.find? Linked.dividesByZero).map fun link => ⟨x.span.start,link.operand.span.stop⟩))
      (links.foldl (fun v link => link.sign.on v link.operand.value) v) := by
  induction links generalizing x f v with
  | nil =>
    rw [List.find?_nil,Option.map_none,Option.or_none]
    exact settles
  | cons link links ih =>
    obtain ⟨starts,ordered,rest⟩ := row
    dsimp only at starts ordered rest
    have whole : x.span.union (link.operand.tree : Expr σ).span = ⟨x.span.start,link.operand.span.stop⟩ :=
      Span.union_ordered (Nat.le_trans filled starts) (Nat.le_trans starts ordered)
    have spans : (link.sign.joins x link.operand.tree).span = ⟨x.span.start,link.operand.span.stop⟩ := whole
    have joined := settles.joins link.operand.settles (a := link.sign) fun _ => Int.natCast_nonneg _
    have onward := ih joined (by rw [spans]; dsimp only; omega) (by rw [spans]; exact rest)
    rw [spans,whole,Option.none_or,Option.or_assoc] at onward
    refine cast (congrArg (fun failure => Expr.Settles _ failure _) ?_) onward
    congr 1
    rw [List.find?_cons]
    by_cases zero : link.sign = .divide ∧ (link.operand.value : Int) = 0
    · rw [if_pos zero,link.dividesByZero_iff.mpr zero]
      rfl
    · rw [if_neg zero,Bool.eq_false_iff.mpr fun divides => zero (link.dividesByZero_iff.mp divides)]
      rfl

theorem Expr.Settles.runs {x : Expr σ} {f : Option Span} {v : Int} {links : List (Linked (Chain Numeral))}
    (settles : x.Settles f v) (sums : ∀ link ∈ links, link.sign.isFactor = false)
    (operands : ∀ link ∈ links, (link.operand.tree Numeral.tree : Expr σ).Settles link.operand.failure? link.operand.total) :
    Expr.Settles (links.foldl (fun x link => link.sign.joins x (link.operand.tree Numeral.tree)) x)
      (f.or (links.findSome? fun link => link.operand.failure?))
      (links.foldl (fun v link => link.sign.on v link.operand.total) v) := by
  induction links generalizing x f v with
  | nil =>
    rw [List.findSome?_nil,Option.or_none]
    exact settles
  | cons link links ih =>
    obtain ⟨isSum,sums⟩ := List.forall_mem_cons.mp sums
    obtain ⟨here,operands⟩ := List.forall_mem_cons.mp operands
    have noDivision : link.sign ≠ .divide := by
      intro divides
      rw [divides] at isSum
      cases isSum
    have joined := settles.joins here (a := link.sign) fun divides => absurd divides noDivision
    have onward := ih joined sums operands
    rw [if_neg fun both => noDivision both.1,Option.or_none,Option.or_assoc] at onward
    rw [List.findSome?_cons]
    cases failure : link.operand.failure? <;> rw [failure] at onward <;> exact onward

namespace Chain

theorem IsRun.settles {run : Chain Numeral} (isRun : IsRun run) :
    (run.tree Numeral.tree : Expr σ).Settles run.failure? run.total := by
  obtain ⟨_,filled,_,row⟩ := isRun
  exact run.first.settles.factors filled row

theorem settles_runs {first : Numeral} {links : List (Linked Numeral)} {b : Nat}
    (filled : first.span.start ≤ first.span.stop) (row : Row (fun link => link.operand.span) first.span.stop links b) :
    ((runs first links).tree (tree Numeral.tree) : Expr σ).Settles ((runs first links).operands.findSome? failure?)
      ((runs first links).value total) := by
  obtain ⟨isRun,others⟩ := isRun_runs filled row
  have begins : ((runs first links).first.tree Numeral.tree : Expr σ).Settles _ _ := isRun.settles
  have settles := begins.runs (fun link present => (others link present).1)
    fun link present => (others link present).2.settles
  rw [operands,List.findSome?_cons,List.findSome?_map]
  cases failure : (runs first links).first.failure? <;> rw [failure] at settles <;> exact settles

theorem height_tree {of : α → Expr σ} {levels : α → Nat} (same : ∀ a, (of a).height = levels a) (chain : Chain α) :
    (chain.tree of).height = chain.height levels := by
  obtain ⟨first,links⟩ := chain
  have joined : ∀ (x : Expr σ) (n : Nat), x.height = n →
      (links.foldl (fun x link => link.sign.joins x (of link.operand)) x).height =
        links.foldl (fun n link => max n (levels link.operand) + 1) n := by
    induction links with
    | nil => exact fun _ _ is => is
    | cons link links ih =>
      rintro x _ rfl
      refine ih _ _ ?_
      dsimp only
      rw [← same]
      rfl
  exact joined _ _ (same first)

end Chain

def Token.EndsLayers (next : Token) (n : Nat) : Prop :=
  next.kind ≠ .dot ∧ ∀ op, next.kind.binaryOp? = some op → n < op.layer

theorem Token.EndsLayers.inner {next : Token} {n : Nat} (ends : next.EndsLayers (n + 1)) : next.EndsLayers n :=
  ⟨ends.1,fun op is => Nat.lt_of_succ_lt (ends.2 op is)⟩

theorem Arithmetic.endsLayers (a : Arithmetic) (place : Span) {n : Nat} (layer : a.op.layer = n + 1) :
    (⟨a.op.kind,place⟩ : Token).EndsLayers n := by
  refine ⟨by cases a <;> exact TokenKind.noConfusion,fun op is => ?_⟩
  rw [BinaryOp.binaryOp_kind,Option.some.injEq] at is
  rw [← is,layer]
  exact Nat.lt_succ_self n

namespace Chain

variable {scope : Scope σ} {room n : Nat} (of : α → Expr σ) (spelled : α → List Token)

theorem ty_tree (ints : ∀ a, (of a).ty = .int) (chain : Chain α) : (chain.tree of).ty = .int := by
  obtain ⟨first,links⟩ := chain
  rcases List.eq_nil_or_concat links with rfl | ⟨front,last,rfl⟩
  · exact ints first
  · rw [tree,List.concat_eq_append,List.foldl_append]
    rfl

theorem endsLayers_links {links : List (Linked α)} {next : Token}
    (layers : ∀ link ∈ links, link.sign.op.layer = n + 1) (ends : next.EndsLayers (n + 1)) :
    (ahead (links.flatMap fun link => ⟨link.sign.op.kind,link.place⟩ :: spelled link.operand) next).EndsLayers n := by
  cases links with
  | nil => exact ends.inner
  | cons link links => exact link.sign.endsLayers _ (layers link List.mem_cons_self)

theorem reads_links (ints : ∀ a, (of a).ty = .int) {links : List (Linked α)}
    (layers : ∀ link ∈ links, link.sign.op.layer = n + 1)
    (operands : ∀ link ∈ links, ∀ next : Token, next.EndsLayers n →
      Reads scope room (.layered n (of link.operand)) (spelled link.operand) next)
    {next : Token} (ends : next.EndsLayers (n + 1)) {x : Expr σ} (isInt : x.ty = .int) :
    Reads scope room (.chained (n + 1) x (links.foldl (fun x link => link.sign.joins x (of link.operand)) x))
      (links.flatMap fun link => ⟨link.sign.op.kind,link.place⟩ :: spelled link.operand) next := by
  induction links generalizing x with
  | nil =>
    refine .unchained fun op is => ?_
    have outer := ends.2 op is
    omega
  | cons link links ih =>
    obtain ⟨layer,layers⟩ := List.forall_mem_cons.mp layers
    obtain ⟨operand,operands⟩ := List.forall_mem_cons.mp operands
    have typed : bindBinary? link.sign.op x (of link.operand) = some (link.sign.joins x (of link.operand)) := by
      unfold bindBinary?
      rw [isInt,ints]
      cases link.sign <;> rfl
    exact .link (BinaryOp.binaryOp_kind _) layer (operand _ (endsLayers_links spelled layers ends)) typed
      (ih layers operands rfl)

theorem reads_tree (chain : Chain α) (ints : ∀ a, (of a).ty = .int)
    (layers : ∀ link ∈ chain.links, link.sign.op.layer = n + 1)
    (operands : ∀ a ∈ chain.operands, ∀ next : Token, next.EndsLayers n →
      Reads scope room (.layered n (of a)) (spelled a) next) {next : Token} (ends : next.EndsLayers (n + 1)) :
    Reads scope room (.layered (n + 1) (chain.tree of)) (chain.tokens spelled) next := by
  obtain ⟨begins,operands⟩ := List.forall_mem_cons.mp operands
  have links := reads_links of spelled ints layers
    (fun link present => operands _ (List.mem_map_of_mem present)) ends (ints chain.first)
  exact .layer (begins _ (endsLayers_links spelled layers ends)) links

end Chain

theorem Numeral.reads {scope : Scope σ} {room : Nat} (n : Numeral) {next : Token} (ends : next.EndsLayers 0) :
    Reads scope room (.layered 0 n.tree) [n.token] next :=
  .operand (.literal rfl) (.unsuffixed ends.1)

theorem Chain.reads_runs {scope : Scope σ} {room b : Nat} {first : Numeral} {links : List (Linked Numeral)}
    (filled : first.span.start ≤ first.span.stop) (row : Row (fun link => link.operand.span) first.span.stop links b)
    {next : Token} (ends : next.kind = .ending) :
    Reads scope room (.layered BinaryOp.layers ((runs first links).tree (tree Numeral.tree)))
      ((⟨first,links⟩ : Chain Numeral).tokens fun n => [n.token]) next := by
  obtain ⟨isRun,others⟩ := isRun_runs filled row
  have outside : ∀ n, next.EndsLayers n := fun n => ⟨by rw [ends]; exact TokenKind.noConfusion,fun op is => by rw [ends] at is; cases is⟩
  have all : ∀ run ∈ (runs first links).operands, IsRun run := by
    refine List.forall_mem_cons.mpr ⟨isRun,fun run present => ?_⟩
    obtain ⟨link,isLink,rfl⟩ := List.mem_map.mp present
    exact (others link isLink).2
  have runsRead : ∀ run ∈ (runs first links).operands, ∀ next : Token, next.EndsLayers 1 →
      Reads scope room (.layered 1 (run.tree Numeral.tree)) (run.tokens fun n => [n.token]) next := by
    intro run present next ends
    refine reads_tree _ _ run (fun _ => rfl) ?_ (fun n _ next ends => n.reads ends) ends
    intro link isLink
    rw [Arithmetic.layer_op,(all run present).factors link isLink]
    rfl
  have sums : ∀ link ∈ (runs first links).links, link.sign.op.layer = 1 + 1 := by
    intro link present
    rw [Arithmetic.layer_op,(others link present).1]
    rfl
  have whole := reads_tree _ _ (runs first links) (ty_tree _ fun _ => rfl) sums runsRead (outside 2)
  rw [runs_tokens] at whole
  exact Expr.layered_looser (by decide) (outside _).2 whole

end TypedFormula
