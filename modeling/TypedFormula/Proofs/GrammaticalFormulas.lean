import TypedFormula.Proofs.Unambiguity
import TypedFormula.Proofs.WholeFormulas

namespace TypedFormula

variable {σ : Type}

namespace Grammar

-- A derivation of these tokens that leads to this tree, whose operators take their operands, within a
-- number of nesting levels.
structure Derives {n : Nat} (d : Derivation n) (tokens : List Token) (e : Expr σ) (room : Nat) : Prop where
  tokens_eq : d.tokens = tokens
  tree_eq : d.tree = e
  fits : d.depth ≤ room
  typed : ∀ node ∈ e.nodes, node.TypeChecks

-- No name, dot or bracket occurs in formulas of the grammar.
theorem not_plain {kind : TokenKind} (noLiteral : kind.literal? = none) (noLeft : kind ≠ .leftParen)
    (noRight : kind ≠ .rightParen) (noUnary : kind.unaryOp? = none) (noBinary : kind.binaryOp? = none) :
    ¬ Plain kind := by
  rintro (literal | left | right | ⟨op,unary⟩ | ⟨n,op,binary⟩)
  · rw [noLiteral] at literal; cases literal
  · exact noLeft left
  · exact noRight right
  · rcases (mem_unaryOps_iff _ _).mp unary with ⟨rfl,rfl⟩ | ⟨rfl,rfl⟩ <;> cases noUnary
  · rw [((mem_binaryOps_iff _ _ _).mp binary).1] at noBinary; cases noBinary

theorem mem_unaryOps_of_unaryOp {kind : TokenKind} {op : UnaryOp} (is : kind.unaryOp? = some op) :
    (kind,op) ∈ unaryOps := by
  unfold TokenKind.unaryOp? at is
  split at is
  all_goals
    cases is
    try simp [unaryOps]

theorem unaryOp_of_mem_unaryOps {kind : TokenKind} {op : UnaryOp} (is : (kind,op) ∈ unaryOps) :
    kind.unaryOp? = some op := by
  rcases (mem_unaryOps_iff _ _).mp is with ⟨rfl,rfl⟩ | ⟨rfl,rfl⟩ <;> rfl

def Shows (room : Nat) (tokens : List Token) : Part σ → Prop
  | .primary e => ∃ d : Derivation 0, Derives d tokens e room
  | .suffixed x e => x = e ∧ tokens = []
  | .layered n e => ∃ d : Derivation n, Derives d tokens e room
  | .chained n x e => ∀ (before : List Token) (d : Derivation n), Derives d before x room →
      ∃ d' : Derivation n, Derives d' (before ++ tokens) e room
  | _ => True

variable {scope : Scope σ} {room : Nat}

theorem derives_literal (token : Token) (value : Value) (is : token.kind.literal? = some value) :
    Derives (.literal token value is) [token] (.literal value token.span : Expr σ) room := by
  refine ⟨rfl,rfl,Nat.zero_le _,?_⟩
  rw [Expr.forall_nodes_iff]
  exact ⟨trivial,fun _ none => by cases none⟩

theorem derives_group {opening closing : Token} {tokens : List Token} {e : Expr σ}
    {inside : Derivation outermost} (opens : opening.kind = .leftParen)
    (closes : closing.kind = .rightParen) (derives : Derives inside tokens e room) :
    Derives (.group opening inside closing opens closes) (opening :: tokens ++ [closing])
      (e.withSpan (opening.span.union closing.span)) (room + 1) := by
  obtain ⟨rfl,rfl,fits,typed⟩ := derives
  refine ⟨rfl,rfl,Nat.succ_le_succ fits,?_⟩
  rw [Expr.forall_nodes_iff] at typed ⊢
  rw [Expr.typeChecks_withSpan,Expr.children_withSpan]
  exact typed

theorem derives_unary {token : Token} {op : UnaryOp} {tokens : List Token} {operand e : Expr σ}
    {d : Derivation 0} (is : (token.kind,op) ∈ unaryOps) (derives : Derives d tokens operand room)
    (bound : bindUnary? op token.span operand = some e) :
    Derives (.unary token op is d) (token :: tokens) e (room + 1) := by
  obtain ⟨rfl,rfl,fits,typed⟩ := derives
  obtain ⟨ty,result,rfl⟩ := Option.map_eq_some_iff.mp bound
  refine ⟨rfl,?_,Nat.succ_le_succ fits,?_⟩
  · rw [Derivation.tree,result]; rfl
  · rw [Expr.forall_nodes_iff]
    refine ⟨result,fun child present => ?_⟩
    cases List.mem_singleton.mp present
    exact typed

theorem derives_binary {n : Nat} {token : Token} {op : BinaryOp} {before tokens : List Token}
    {x y z : Expr σ} {left : Derivation (n + 1)} {right : Derivation n}
    (is : (token.kind,op) ∈ binaryOps (n + 1)) (first : Derives left before x room)
    (second : Derives right tokens y room) (bound : bindBinary? op x y = some z) :
    Derives (.binary left token op is right) (before ++ token :: tokens) z room := by
  obtain ⟨rfl,rfl,fits,typed⟩ := first
  obtain ⟨rfl,rfl,fits',typed'⟩ := second
  obtain ⟨ty,result,rfl⟩ := Option.map_eq_some_iff.mp bound
  refine ⟨rfl,?_,Nat.max_le.mpr ⟨fits,fits'⟩,?_⟩
  · rw [Derivation.tree,result]; rfl
  · rw [Expr.forall_nodes_iff]
    refine ⟨result,fun child present => ?_⟩
    simp only [Expr.children,List.mem_cons,List.not_mem_nil,or_false] at present
    rcases present with rfl | rfl
    · exact typed
    · exact typed'

theorem derived {part : Part σ} {tokens : List Token} {next : Token}
    (reads : Reads scope room part tokens next) (plain : ∀ token ∈ tokens, Plain token.kind) :
    Shows room tokens part := by
  induction reads with
  | literal is => exact ⟨_,derives_literal _ _ is⟩
  | group opens _ closes _ inside suffixes =>
    obtain ⟨d,derives⟩ := inside fun token present => plain token (by simp [present])
    -- Suffixes start with a dot, which is no plain token, so there are none.
    obtain ⟨rfl,rfl⟩ := suffixes fun token present => plain token (by simp [present])
    exact ⟨_,derives_group opens closes derives⟩
  | unary is _ bound inside =>
    obtain ⟨d,derives⟩ := inside fun token present => plain token (List.mem_cons_of_mem _ present)
    exact ⟨_,derives_unary (mem_unaryOps_of_unaryOp is) derives bound⟩
  | bracket is =>
    have bracket := plain _ List.mem_cons_self
    rw [is] at bracket
    exact absurd bracket (not_plain rfl (by decide) (by decide) rfl rfl)
  | name named =>
    obtain ⟨first,rest,rfl,spelling,is⟩ := named.starts rfl
    have name := plain _ List.mem_cons_self
    rw [is] at name
    exact absurd name (not_plain rfl (by simp) (by simp) rfl rfl)
  | member | indexed | called | noArguments | someArguments | last | more => trivial
  | unsuffixed => exact ⟨rfl,rfl⟩
  | suffix is =>
    have dot := plain _ (List.mem_append_left _ List.mem_cons_self)
    rw [is] at dot
    exact absurd dot (not_plain rfl (by decide) (by decide) rfl rfl)
  | operand _ _ first suffixes =>
    obtain ⟨d,derives⟩ := first fun token present => plain token (List.mem_append_left _ present)
    obtain ⟨rfl,rfl⟩ := suffixes fun token present => plain token (List.mem_append_right _ present)
    rw [List.append_nil]
    exact ⟨d,derives⟩
  | layer _ _ left chain =>
    obtain ⟨d,derives⟩ := left fun token present => plain token (List.mem_append_left _ present)
    refine chain (fun token present => plain token (List.mem_append_right _ present)) _ (.tighter d) ?_
    exact ⟨derives.tokens_eq,derives.tree_eq,derives.fits,derives.typed⟩
  | unchained =>
    intro before d derives
    rw [List.append_nil]
    exact ⟨d,derives⟩
  | link is fits _ bound _ right rest =>
    intro before d derives
    obtain ⟨d',derives'⟩ := right fun token present => plain token (by simp [present])
    have linked := derives_binary ((mem_binaryOps_iff _ _ _).mpr ⟨is,fits⟩) derives derives' bound
    obtain ⟨whole,result⟩ := rest (fun token present => plain token (by simp [present])) _ _ linked
    refine ⟨whole,?_⟩
    rw [List.append_assoc] at result
    exact result

-- The token behind a derivation of a layer is neither a dot nor an operator of that layer or one that
-- binds tighter.
structure Ends (n : Nat) (next : Token) : Prop where
  noDot : next.kind ≠ .dot
  outside : ∀ op, next.kind.binaryOp? = some op → n < op.layer

theorem ends_ahead {n : Nat} {x e : Expr σ} {others : List Token} {next : Token}
    (chain : Reads scope room (.chained (n + 1) x e) others next) (ends : Ends (n + 1) next) :
    Ends n (ahead others next) := by
  cases chain with
  | unchained => exact ⟨ends.noDot,fun op is => Nat.lt_of_succ_lt (ends.outside op is)⟩
  | @link _ _ token op _ _ _ _ _ _ _ is fits =>
    refine ⟨?_,fun other isOther => ?_⟩
    · intro dot
      rw [List.cons_append,ahead_cons] at dot
      rw [dot] at is
      cases is
    · rw [List.cons_append,ahead_cons,is] at isOther
      cases isOther
      omega

-- A derivation is read as what it derives, with links of its layer behind it if it is no primary.
def Readable (scope : Scope σ) : {n : Nat} → Derivation n → Prop
  | 0, d => ∀ room next, d.depth ≤ room → (∀ node ∈ (d.tree : Expr σ).nodes, node.TypeChecks) →
      next.kind ≠ .dot → Reads scope room (.primary d.tree) d.tokens next
  | n + 1, d => ∀ room others next e, d.depth ≤ room →
      (∀ node ∈ (d.tree : Expr σ).nodes, node.TypeChecks) → Ends (n + 1) next →
      Reads scope room (.chained (n + 1) d.tree e) others next →
      Reads scope room (.layered (n + 1) e) (d.tokens ++ others) next

theorem layered_of_readable {n : Nat} {d : Derivation n} {next : Token} (readable : Readable scope d)
    (fits : d.depth ≤ room) (typed : ∀ node ∈ (d.tree : Expr σ).nodes, node.TypeChecks)
    (ends : Ends n next) : Reads scope room (.layered n d.tree) d.tokens next := by
  cases n with
  | zero =>
    rw [← List.append_nil d.tokens]
    exact .operand (readable room next fits typed ends.noDot) (.unsuffixed ends.noDot)
  | succ n =>
    rw [← List.append_nil d.tokens]
    refine readable room [] next _ fits typed ends (.unchained ?_)
    intro op is same
    have outside := ends.outside op is
    omega

theorem readable {n : Nat} (d : Derivation n) : Readable scope d := by
  induction d with
  | literal token value is => exact fun _ _ _ _ _ => .literal is
  | group opening inside closing opens closes ih =>
    intro room next fits typed noDot
    obtain ⟨room,rfl⟩ := Nat.exists_eq_add_one_of_ne_zero (Nat.ne_zero_of_lt fits)
    have typedInside : ∀ node ∈ (inside.tree : Expr σ).nodes, node.TypeChecks := by
      rw [Expr.forall_nodes_iff] at typed ⊢
      rw [Derivation.tree,Expr.typeChecks_withSpan,Expr.children_withSpan] at typed
      exact typed
    have ends : Ends outermost closing := by
      refine ⟨by rw [closes]; decide,fun op is => ?_⟩
      rw [closes] at is
      cases is
    exact .group opens (layered_of_readable ih (Nat.le_of_succ_le_succ fits) typedInside ends) closes
      (.unsuffixed noDot)
  | unary token op is operand ih =>
    intro room next fits typed noDot
    obtain ⟨room,rfl⟩ := Nat.exists_eq_add_one_of_ne_zero (Nat.ne_zero_of_lt fits)
    rw [Expr.forall_nodes_iff] at typed
    obtain ⟨result,below⟩ := typed
    refine .unary (unaryOp_of_mem_unaryOps is) (ih room next (Nat.le_of_succ_le_succ fits)
      (below _ (by simp [Derivation.tree,Expr.children])) noDot) ?_
    exact Option.map_eq_some_iff.mpr ⟨_,result,rfl⟩
  | tighter inside ih =>
    intro room others next e fits typed ends chain
    exact .layer (layered_of_readable ih fits typed (ends_ahead chain ends)) chain
  | @binary n left token op is right ihLeft ihRight =>
    intro room others next e fits typed ends chain
    obtain ⟨isOp,layer⟩ := (mem_binaryOps_iff _ _ _).mp is
    obtain ⟨fitsLeft,fitsRight⟩ := Nat.max_le.mp fits
    rw [Expr.forall_nodes_iff] at typed
    obtain ⟨result,below⟩ := typed
    have readsRight := layered_of_readable ihRight fitsRight
      (below _ (by simp [Derivation.tree,Expr.children])) (ends_ahead chain ends)
    have linked := Reads.link isOp layer readsRight (Option.map_eq_some_iff.mpr ⟨_,result,rfl⟩) chain
    have whole := ihLeft room _ next e fitsLeft (below _ (by simp [Derivation.tree,Expr.children])) ends
      linked
    simpa [Derivation.tokens] using whole

-- The parser accepts exactly what the grammar derives, within the limits and if the operators take their
-- operands, and there is no choice between derivations.
theorem parse_iff_derivation (scope : Scope σ) (limits : Limits) (text : String) (tokens : List Token)
    (last : Token) (tokenized : Lexer.tokenize text = .ok (tokens ++ [last]))
    (plain : ∀ token ∈ tokens, Plain token.kind) :
    (∀ e : Expr σ, Parser.parse scope limits text = .ok e ↔
      Text.byteLength text.toList ≤ limits.maxLength ∧
      (∃ d : Derivation outermost, d.tokens = tokens ∧ d.tree = e ∧ d.depth ≤ limits.maxDepth) ∧
      (∀ node ∈ e.nodes, node.TypeChecks) ∧ e.height ≤ limits.maxHeight) ∧
    ∀ d d' : Derivation outermost, d.tokens = tokens → d'.tokens = tokens → d = d' := by
  refine ⟨fun e => ?_,fun d d' same same' => d.unique d' (same.trans same'.symm)⟩
  rw [Parser.parse_ok_iff]
  refine and_congr_right fun _ => ?_
  constructor
  · rintro ⟨⟨tokens',last',tokenized',reads⟩,low⟩
    obtain ⟨rfl,_⟩ := List.append_inj' (Except.ok.inj (tokenized'.symm.trans tokenized)) rfl
    obtain ⟨d,derives⟩ := derived reads plain
    exact ⟨⟨d,derives.tokens_eq,derives.tree_eq,derives.fits⟩,derives.typed,low⟩
  · rintro ⟨⟨d,rfl,rfl,fits⟩,typed,low⟩
    refine ⟨⟨_,last,tokenized,layered_of_readable (readable d) fits typed ?_⟩,low⟩
    have ended := Lexer.tokenize_ending tokenized
    exact ⟨by rw [ended]; decide,fun op is => by rw [ended] at is; cases is⟩

def productTokens : List Token :=
  [⟨.minus,⟨0,1⟩⟩,⟨.int 1,⟨1,2⟩⟩,⟨.star,⟨3,4⟩⟩,⟨.int 2,⟨5,6⟩⟩]

def product : Derivation 1 :=
  .binary (.tighter (.unary ⟨.minus,⟨0,1⟩⟩ .negate (by decide) (.literal ⟨.int 1,⟨1,2⟩⟩ (.int 1) rfl)))
    ⟨.star,⟨3,4⟩⟩ .multiply (by decide) (.literal ⟨.int 2,⟨5,6⟩⟩ (.int 2) rfl)

def productFormula : Derivation outermost :=
  .tighter (.tighter (.tighter (.tighter (.tighter (.tighter (.tighter (.tighter (.tighter product))))))))

theorem product_parses :
    Lexer.tokenize "-1 * 2" = .ok (productTokens ++ [⟨.ending,⟨6,6⟩⟩]) ∧
    (∀ token ∈ productTokens, Plain token.kind) ∧
    Parser.parse (⟨.empty,none⟩ : Scope Unit) ⟨6,1,3⟩ "-1 * 2" =
      .ok (.binary .multiply (.unary .negate (.literal (.int 1) ⟨1,2⟩) .int ⟨0,2⟩)
        (.literal (.int 2) ⟨5,6⟩) .int ⟨0,6⟩) := by
  have tokenized : Lexer.tokenize "-1 * 2" = .ok (productTokens ++ [⟨.ending,⟨6,6⟩⟩]) := rfl
  have plain : ∀ token ∈ productTokens, Plain token.kind := by
    simp only [productTokens,List.forall_mem_cons]
    refine ⟨.inr (.inr (.inr (.inl ⟨.negate,by decide⟩))),.inl rfl,
      .inr (.inr (.inr (.inr ⟨1,.multiply,by decide⟩))),.inl rfl,by simp⟩
  refine ⟨tokenized,plain,((parse_iff_derivation _ _ _ _ _ tokenized plain).1 _).mpr ?_⟩
  exact ⟨by decide,⟨productFormula,rfl,rfl,by decide⟩,by decide,by decide⟩

end Grammar
end TypedFormula
