import TypedFormula.Proofs.ReadingsOfRuns

namespace TypedFormula

variable {σ : Type}

-- What cannot stand behind a part: an operator that would have been read with it.
def Part.EndsAt (tokens : List Token) (next : Token) : Part σ → Prop
  | .layered n _ => ∀ op, next.kind.binaryOp? = some op → n < op.layer
  | .chained n _ _ => (∀ op, next.kind.binaryOp? = some op → op.layer ≠ n) ∧
      (tokens ≠ [] → ∀ op, next.kind.binaryOp? = some op → n < op.layer)
  | _ => True

theorem Reads.endsAt {scope : Scope σ} {room : Nat} {part : Part σ} {tokens : List Token} {next : Token}
    (reads : Reads scope room part tokens next) : part.EndsAt tokens next := by
  -- A chain that is empty ends where the operand in front of it does.
  have beyond : ∀ {n : Nat} {x e : Expr σ} {others : List Token} {next : Token},
      (∀ op, (ahead others next).kind.binaryOp? = some op → n < op.layer) →
      (Part.chained (n + 1) x e).EndsAt others next →
      ∀ op, next.kind.binaryOp? = some op → n + 1 < op.layer := by
    intro n x e others next inner chain op is
    cases others with
    | nil =>
      have least := inner op is
      have other := chain.1 op is
      omega
    | cons token others => exact chain.2 (List.cons_ne_nil _ _) op is
  induction reads with
  | operand => exact fun op _ => op.layer_le.1
  | layer _ _ left chain => exact beyond left chain
  | unchained stops => exact ⟨stops,fun filled => absurd rfl filled⟩
  | link _ _ _ _ _ right rest =>
    have ends := beyond right rest
    exact ⟨rest.1,fun _ => ends⟩
  | _ => trivial

theorem TokenKind.ne_ending_of_binaryOp {kind : TokenKind} {op : BinaryOp} (is : kind.binaryOp? = some op) :
    kind ≠ .ending := by
  rintro rfl
  cases is

-- Behind an operator comes another token.
theorem Proper.pos_of_binaryOp {s : ParseState} {op : BinaryOp} (ends : Proper s)
    (is : s.current.kind.binaryOp? = some op) : 0 < s.rest.length :=
  List.length_pos_iff.mpr (ends.rest_ne_nil (TokenKind.ne_ending_of_binaryOp is))

namespace Parser

-- Operators of one layer between operands of the layer below, grouped to the left.
def chain (operand : Parse (Expr σ)) (layer : Nat) : Nat → Expr σ → Parse (Expr σ)
  | 0, left => pure left
  | steps + 1, left => do
    let token ← Parse.current
    match token.kind.binaryOp? with
    | some op =>
      if op.layer = layer then do
        Parse.bump
        let right ← operand
        chain operand layer steps (← Parse.bind (bindBinary op token.span left right))
      else pure left
    | none => pure left

def layered (operand : Parse (Expr σ)) : Nat → Parse (Expr σ)
  | 0 => operand
  | n + 1 => do
    let left ← layered operand n
    chain (layered operand n) (n + 1) (← Parse.tokensLeft) left

-- What the parsers of the first `n` layers do behind an operand, one after the other.
def chains (operand : Parse (Expr σ)) : Nat → Expr σ → Parse (Expr σ)
  | 0, x => pure x
  | n + 1, x => do
    let left ← chains operand n x
    chain (layered operand n) (n + 1) (← Parse.tokensLeft) left

-- An operator and what stands to its right, behind the tree to its left.
def joined (right : Parse (Expr σ)) (op : BinaryOp) (span : Span) (x : Expr σ) : Parse (Expr σ) := do
  Parse.bump
  let y ← right
  Parse.bind (bindBinary op span x y)

variable {scope : Scope σ} {limits : Limits} {inner : Inner σ} {room n steps : Nat} {x e : Expr σ}
  {s last : ParseState} {op : BinaryOp}

theorem layered_eq_chains (operand : Parse (Expr σ)) (n : Nat) : layered operand n = operand >>= chains operand n := by
  induction n with
  | zero => exact (bind_pure operand).symm
  | succ n ih =>
    have whole : layered operand (n + 1) = (operand >>= chains operand n) >>= fun left =>
        Parse.tokensLeft >>= fun steps => chain (layered operand n) (n + 1) steps left := by
      rw [← ih]
      rfl
    rw [whole,bind_assoc]
    rfl

section Steps

variable {operand : Parse (Expr σ)} {tighter : (m : Nat) → m < n → Parse (Expr σ)}

theorem chain_stop (outside : ∀ op, s.current.kind.binaryOp? = some op → op.layer ≠ n) :
    chain operand n steps x s = .ok x s := by
  cases steps with
  | zero => rfl
  | succ steps =>
    rw [chain,Parse.current_run]
    cases is : s.current.kind.binaryOp? with
    | none => rfl
    | some op => exact congrFun (if_neg (outside op is)) s

theorem chain_link (is : s.current.kind.binaryOp? = some op) (fits : op.layer = n) :
    chain operand n (steps + 1) x s = (joined operand op s.current.span x >>= chain operand n steps) s := by
  rw [chain,Parse.current_run,joined]
  simp only [is,bind_assoc]
  exact congrFun (if_pos fits) s

theorem operators_stop (outside : ∀ op, s.current.kind.binaryOp? = some op → n < op.layer) :
    operators n tighter steps x s = .ok x s := by
  cases steps with
  | zero => rfl
  | succ steps =>
    rw [operators,Parse.current_run]
    cases is : s.current.kind.binaryOp? with
    | none => rfl
    | some op => exact congrFun (dif_neg (Nat.not_le.mpr (outside op is))) s

theorem operators_link (is : s.current.kind.binaryOp? = some op) (fits : op.layer ≤ n) :
    operators n tighter (steps + 1) x s =
      (joined (tighter (op.layer - 1) (op.tighter_lt fits)) op s.current.span x >>= operators n tighter steps) s := by
  rw [operators,Parse.current_run,joined]
  simp only [is,bind_assoc]
  exact congrFun (dif_pos fits) s

end Steps

section Reading

variable {operand : Parse (Expr σ)}

theorem joined_reads {right : Parse (Expr σ)} {span : Span} {z : Expr σ}
    (delivers : Delivers right scope room (.layered n)) (ends : Proper s)
    (is : s.current.kind.binaryOp? = some op) (ran : joined right op span x s = .ok z last) :
    ∃ y tokens, Consumes s last (s.current :: tokens) ∧ Reads scope room (.layered n y) tokens last.current ∧
      bindBinary? op x y = some z := by
  unfold joined at ran
  obtain ⟨_,after,bumped,ran⟩ := bind_succeeds.mp ran
  have passed := bump_consumes ends (TokenKind.ne_ending_of_binaryOp is) bumped
  obtain ⟨y,behind,ranRight,ran⟩ := bind_succeeds.mp ran
  obtain ⟨tokens,consumed,reads⟩ := delivers _ _ _ (passed.proper ends) ranRight
  obtain ⟨typed,bound,current,_⟩ := bound_reads (bindBinary_agrees _ _ _ _) ran
  rw [← current] at reads
  refine ⟨y,tokens,?_,reads,typed⟩
  simpa using passed.trans (consumed.trans bound)

theorem chain_reads (delivers : Delivers operand scope room (.layered n)) (ends : Proper s)
    (enough : s.rest.length ≤ steps) (ran : chain operand (n + 1) steps x s = .ok e last) :
    ∃ tokens, Consumes s last tokens ∧ Reads scope room (.chained (n + 1) x e) tokens last.current := by
  induction steps generalizing x s with
  | zero =>
    obtain ⟨rfl,rfl⟩ := pure_succeeds.mp ran
    exact ⟨[],.refl s,.unchained fun op is => absurd (ends.pos_of_binaryOp is) (Nat.not_lt.mpr enough)⟩
  | succ steps ih =>
    by_cases linked : ∃ op, s.current.kind.binaryOp? = some op ∧ op.layer = n + 1
    · obtain ⟨op,is,fits⟩ := linked
      rw [chain_link is fits] at ran
      obtain ⟨z,middle,ranJoined,ran⟩ := bind_succeeds.mp ran
      obtain ⟨y,tokens,consumed,reads,typed⟩ := joined_reads delivers ends is ranJoined
      have lengths := consumed.length
      rw [List.length_cons] at lengths
      obtain ⟨others,consumedRest,readsRest⟩ := ih (consumed.proper ends) (by omega) ran
      rw [consumedRest.current] at reads
      exact ⟨_,consumed.trans consumedRest,.link is fits reads typed readsRest⟩
    · have outside : ∀ op, s.current.kind.binaryOp? = some op → op.layer ≠ n + 1 :=
        fun op is fits => linked ⟨op,is,fits⟩
      rw [chain_stop outside] at ran
      cases ran
      exact ⟨[],.refl _,.unchained outside⟩

theorem layered_reads (delivers : Delivers operand scope room (.layered 0)) (n : Nat) :
    Delivers (layered operand n) scope room (.layered n) := by
  induction n with
  | zero => exact delivers
  | succ n ih =>
    intro s last e ends ran
    unfold layered at ran
    obtain ⟨x,middle,ranLeft,ran⟩ := bind_succeeds.mp ran
    obtain ⟨tokens,consumed,reads⟩ := ih _ _ _ ends ranLeft
    obtain ⟨left,_,ranCount,ran⟩ := bind_succeeds.mp ran
    obtain ⟨rfl,rfl⟩ := Parse.tokensLeft_succeeds.mp ranCount
    obtain ⟨others,consumedRest,readsRest⟩ := chain_reads ih (consumed.proper ends) (Nat.le_refl _) ran
    rw [consumedRest.current] at reads
    exact ⟨_,consumed.trans consumedRest,.layer reads readsRest⟩

end Reading

section Agreement

variable {operand : Parse (Expr σ)}

-- Only from behind the operator is its right side read.
theorem joined_congr {right other : Parse (Expr σ)} {span : Span} (ends : Proper s)
    (is : s.current.kind.binaryOp? = some op) (agrees : ∀ s, Proper s → right s = other s) :
    joined right op span x s = joined other op span x s := by
  refine bind_congr_ok fun _ after bumped => ?_
  have passed := bump_consumes ends (TokenKind.ne_ending_of_binaryOp is) bumped
  rw [bind_run,agrees after (passed.proper ends),← bind_run]

variable (delivers : Delivers operand scope room (.layered 0))

include delivers

theorem joined_moves {span : Span} {z : Expr σ} (ends : Proper s) (is : s.current.kind.binaryOp? = some op)
    (ran : joined (layered operand n) op span x s = .ok z last) :
    Proper last ∧ last.rest.length < s.rest.length ∧
      ∀ other, last.current.kind.binaryOp? = some other → n < other.layer := by
  obtain ⟨y,tokens,consumed,reads,_⟩ := joined_reads (layered_reads delivers n) ends is ran
  have lengths := consumed.length
  rw [List.length_cons] at lengths
  exact ⟨consumed.proper ends,by omega,reads.endsAt⟩

-- With steps enough for the tokens that are left, their number makes no difference to a chain.
theorem chain_steps {more : Nat} (ends : Proper s) (enough : s.rest.length ≤ steps) (enoughMore : s.rest.length ≤ more) :
    chain (layered operand n) (n + 1) steps x s = chain (layered operand n) (n + 1) more x s := by
  induction steps generalizing more x s with
  | zero =>
    have stop : ∀ op, s.current.kind.binaryOp? = some op → op.layer ≠ n + 1 :=
      fun op is => absurd (ends.pos_of_binaryOp is) (Nat.not_lt.mpr enough)
    rw [chain_stop stop,chain_stop stop]
  | succ steps ih =>
    by_cases linked : ∃ op, s.current.kind.binaryOp? = some op ∧ op.layer = n + 1
    · obtain ⟨op,is,fits⟩ := linked
      obtain ⟨more,rfl⟩ := Nat.exists_eq_add_one_of_ne_zero
        (Nat.ne_zero_of_lt (Nat.lt_of_lt_of_le (ends.pos_of_binaryOp is) enoughMore))
      rw [chain_link is fits,chain_link is fits]
      refine bind_congr_ok fun z middle ran => ?_
      obtain ⟨proper,fewer,_⟩ := joined_moves delivers ends is ran
      exact ih proper (by omega) (by omega)
    · have stop : ∀ op, s.current.kind.binaryOp? = some op → op.layer ≠ n + 1 :=
        fun op is fits => linked ⟨op,is,fits⟩
      rw [chain_stop stop,chain_stop stop]

omit delivers in
theorem chains_stop (outside : ∀ op, s.current.kind.binaryOp? = some op → n < op.layer) :
    chains operand n x s = .ok x s := by
  induction n with
  | zero => rfl
  | succ n ih =>
    rw [chains,bind_run,ih fun op is => Nat.lt_of_succ_lt (outside op is)]
    exact chain_stop fun op is => Nat.ne_of_gt (outside op is)

-- The chains take an operator with what binds tighter to its right, whichever of them it belongs to.
theorem chains_link (ends : Proper s) (is : s.current.kind.binaryOp? = some op) (fits : op.layer ≤ n) :
    chains operand n x s =
      (joined (layered operand (op.layer - 1)) op s.current.span x >>= chains operand n) s := by
  induction fits with
  | refl =>
    obtain ⟨n,layer⟩ : ∃ n, op.layer = n + 1 := ⟨op.layer - 1,by have := op.layer_le.1; omega⟩
    obtain ⟨steps,left⟩ := Nat.exists_eq_add_one_of_ne_zero (Nat.ne_of_gt (ends.pos_of_binaryOp is))
    have skipped : chains operand n x s = .ok x s := by
      refine chains_stop fun other isOther => ?_
      cases is.symm.trans isOther
      omega
    rw [layer,Nat.add_sub_cancel,chains,bind_run,skipped]
    change chain (layered operand n) (n + 1) s.rest.length x s = _
    rw [left,chain_link is layer]
    refine bind_congr_ok fun z middle ran => ?_
    obtain ⟨proper,fewer,outside⟩ := joined_moves delivers ends is ran
    rw [chains,bind_run,chains_stop outside]
    exact chain_steps delivers proper (by omega) (Nat.le_refl _)
  | @step n fits ih =>
    have next : ∀ y, chains operand (n + 1) y = chains operand n y >>= fun left =>
        Parse.tokensLeft >>= fun steps => chain (layered operand n) (n + 1) steps left := fun _ => rfl
    rw [next,bind_run,ih,← bind_run,bind_assoc]
    rfl

-- Taking operators as they come does what the chains of all layers do.
theorem operators_eq_chains {tighter : (m : Nat) → m < n → Parse (Expr σ)}
    (agrees : ∀ m (less : m < n) s, Proper s → tighter m less s = layered operand m s) (ends : Proper s)
    (enough : s.rest.length ≤ steps) : operators n tighter steps x s = chains operand n x s := by
  induction steps generalizing x s with
  | zero =>
    have stop : ∀ op, s.current.kind.binaryOp? = some op → n < op.layer :=
      fun op is => absurd (ends.pos_of_binaryOp is) (Nat.not_lt.mpr enough)
    rw [operators_stop stop,chains_stop stop]
  | succ steps ih =>
    by_cases linked : ∃ op, s.current.kind.binaryOp? = some op ∧ op.layer ≤ n
    · obtain ⟨op,is,fits⟩ := linked
      rw [operators_link is fits,chains_link delivers ends is fits,bind_run,joined_congr ends is (agrees _ _),← bind_run]
      refine bind_congr_ok fun z middle ran => ?_
      obtain ⟨proper,fewer,_⟩ := joined_moves delivers ends is ran
      exact ih proper (by omega)
    · have stop : ∀ op, s.current.kind.binaryOp? = some op → n < op.layer :=
        fun op is => Nat.lt_of_not_le fun fits => linked ⟨op,is,fits⟩
      rw [operators_stop stop,chains_stop stop]

theorem expression_eq_layered (n : Nat) : ∀ s, Proper s → expression operand n s = layered operand n s := by
  induction n using Nat.strongRecOn with
  | ind n ih =>
    intro s ends
    rw [expression,layered_eq_chains]
    refine bind_congr_ok fun left middle ran => ?_
    obtain ⟨tokens,consumed,_⟩ := delivers _ _ _ ends ran
    rw [Parse.tokensLeft_run]
    exact operators_eq_chains delivers ih (consumed.proper ends) (Nat.le_refl _)

end Agreement

theorem goal_expression (inside : ReadsInside scope room inner) (ends : Proper s) :
    goal scope limits inner .expression s = layered (operand scope limits inner) BinaryOp.layers s :=
  expression_eq_layered (operand_reads inside) BinaryOp.layers s ends

theorem goal_reads (inside : ReadsInside scope room inner) (g : Goal) :
    Delivers (goal scope limits inner g) scope room g.part := by
  cases g with
  | primary => exact primary_reads inside
  | expression =>
    intro s last e ends ran
    rw [goal_expression inside ends] at ran
    exact layered_reads (operand_reads inside) BinaryOp.layers s last e ends ran

theorem within_reads (room : Nat) (g : Goal) :
    Delivers (within scope limits room g) scope room g.part := by
  induction room generalizing g with
  | zero => exact goal_reads (show ReadsInside scope 0 none from rfl) g
  | succ room ih => exact goal_reads (show ReadsInside scope (room + 1) (some _) from ⟨_,rfl,ih⟩) g

def innerOf (scope : Scope σ) (limits : Limits) : Nat → Inner σ
  | 0 => none
  | room + 1 => some (within scope limits room)

theorem within_eq (scope : Scope σ) (limits : Limits) (room : Nat) (g : Goal) :
    within scope limits room g = goal scope limits (innerOf scope limits room) g := by
  cases room <;> rfl

theorem innerOf_reads (scope : Scope σ) (limits : Limits) (room : Nat) :
    ReadsInside scope room (innerOf scope limits room) := by
  cases room with
  | zero => rfl
  | succ room => exact ⟨_,rfl,within_reads room⟩

theorem within_expression (ends : Proper s) : within scope limits room .expression s =
    layered (operand scope limits (innerOf scope limits room)) BinaryOp.layers s := by
  rw [within_eq]
  exact goal_expression (innerOf_reads scope limits room) ends

end Parser
end TypedFormula
