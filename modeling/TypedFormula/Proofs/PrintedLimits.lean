import TypedFormula.Proofs.GrammaticalFormulas
import TypedFormula.Proofs.PrintedMeaning

namespace TypedFormula

variable {σ : Type}

namespace Grammar

open TypedFormula.Expr

theorem exists_lift (σ : Type) {n m : Nat} (le : n ≤ m) (d : Derivation n) :
    ∃ lifted : Derivation m, lifted.tokens = d.tokens ∧ (lifted.tree : Expr σ) = d.tree ∧
      lifted.depth = d.depth := by
  induction le with
  | refl => exact ⟨d,rfl,rfl,rfl⟩
  | step _ ih =>
    obtain ⟨lifted,same⟩ := ih
    exact ⟨.tighter lifted,same⟩

theorem Derivation.plain {n : Nat} (d : Derivation n) : ∀ token ∈ d.tokens, Plain token.kind := by
  induction d with
  | literal token value is =>
    refine List.forall_mem_singleton.mpr (.inl ?_)
    rw [is]
    rfl
  | group opening inside closing opens closes ih =>
    refine List.forall_mem_cons.mpr ⟨.inr (.inl opens),List.forall_mem_append.mpr ⟨ih,?_⟩⟩
    exact List.forall_mem_singleton.mpr (.inr (.inr (.inl closes)))
  | unary token op is operand ih =>
    exact List.forall_mem_cons.mpr ⟨.inr (.inr (.inr (.inl ⟨op,is⟩))),ih⟩
  | tighter inside ih => exact ih
  | binary left token op is right first second =>
    refine List.forall_mem_append.mpr ⟨first,List.forall_mem_cons.mpr ⟨?_,second⟩⟩
    exact .inr (.inr (.inr (.inr ⟨_,op,is⟩)))

-- The tree of the printed form differs from the printed tree in the scale of decimals and in spans.
abbrev Reread : Expr σ → Expr σ → Prop := Alike fun v w => w = v.reread

theorem Reread.ty_eq {e printed : Expr σ} (alike : Reread e printed) : printed.ty = e.ty := by
  refine (Alike.ty (fun v w same => ?_) alike).symm
  rw [same,Value.reread_ty]

-- These tokens have a derivation as one operand that stands for the tree `e`, and its depth counts the
-- levels above the leaves.
structure Prints (e : Expr σ) (tokens : List Token) (d : Derivation 0) (printed : Expr σ) : Prop where
  derives : Derives d tokens printed d.depth
  alike : Reread e printed
  levels : d.depth + 1 = e.height

theorem kinds_withSpan (e : Expr σ) (span : Span) : (e.withSpan span).kinds = e.kinds := by
  cases e <;> simp only [withSpan,kinds]

theorem prints_withSpan {e printed : Expr σ} {tokens : List Token} {d : Derivation 0} (span : Span) :
    Prints (e.withSpan span) tokens d printed ↔ Prints e tokens d printed := by
  have alike : Reread (e.withSpan span) printed ↔ Reread e printed := by
    cases e <;> cases printed <;> exact Iff.rfl
  constructor
  · intro prints
    exact ⟨prints.derives,alike.mp prints.alike,prints.levels.trans (e.height_withSpan span)⟩
  · intro prints
    exact ⟨prints.derives,alike.mpr prints.alike,prints.levels.trans (e.height_withSpan span).symm⟩

theorem prints_literal {token : Token} {value : Value} {tokens : List Token} {span : Span}
    (is : token.kind.literal? = some value)
    (kinds : tokens.map (·.kind) = (Expr.literal value span : Expr σ).kinds) :
    ∃ d printed, Prints (.literal value span : Expr σ) tokens d printed := by
  obtain ⟨again,rfl,kind⟩ := List.map_eq_singleton_iff.mp kinds
  have isAgain : again.kind.literal? = some value.reread := by
    rw [kind]
    generalize token.kind = original at is
    cases original <;> cases is <;> rfl
  exact ⟨_,_,derives_literal again _ isAgain,rfl,rfl⟩

theorem prints_unary {op : UnaryOp} {operand : Expr σ} {ty : Ty} {span : Span} {tokens : List Token}
    (typed : op.resultType operand.ty = some ty)
    (kinds : tokens.map (·.kind) = (Expr.unary op operand ty span).kinds)
    (below : ∀ tokens, tokens.map (·.kind) = operand.kinds → ∃ d printed, Prints operand tokens d printed) :
    ∃ d printed, Prints (.unary op operand ty span) tokens d printed := by
  obtain ⟨sign,others,rfl,isSign,rest⟩ := List.map_eq_cons_iff.mp kinds
  obtain ⟨d,printed,derives,alike,levels⟩ := below others rest
  have is : sign.kind.unaryOp? = some op := by rw [isSign,op.unaryOp_kind]
  have bound : bindUnary? op sign.span printed =
      some (.unary op printed ty (sign.span.union printed.span)) := by
    rw [bindUnary?,alike.ty_eq,typed]
    rfl
  refine ⟨_,_,derives_unary (mem_unaryOps_of_unaryOp is) derives bound,⟨rfl,rfl,alike⟩,?_⟩
  rw [Derivation.depth,levels,height]

theorem prints_binary {op : BinaryOp} {left right : Expr σ} {ty : Ty} {span : Span} {tokens : List Token}
    (typed : op.resultType left.ty right.ty = some ty)
    (kinds : tokens.map (·.kind) = (Expr.binary op left right ty span).kinds)
    (first : ∀ tokens, tokens.map (·.kind) = left.kinds → ∃ d printed, Prints left tokens d printed)
    (second : ∀ tokens, tokens.map (·.kind) = right.kinds → ∃ d printed, Prints right tokens d printed) :
    ∃ d printed, Prints (.binary op left right ty span) tokens d printed := by
  obtain ⟨opening,others,rfl,opens,kinds⟩ := List.map_eq_cons_iff.mp kinds
  obtain ⟨front,behind,rfl,isFront,kinds⟩ := List.map_eq_append_iff.mp kinds
  obtain ⟨token,behind,rfl,isOp,kinds⟩ := List.map_eq_cons_iff.mp kinds
  obtain ⟨back,closed,rfl,isBack,kinds⟩ := List.map_eq_append_iff.mp kinds
  obtain ⟨closing,rfl,closes⟩ := List.map_eq_singleton_iff.mp kinds
  obtain ⟨d,x,⟨rfl,rfl,_,typedLeft⟩,alike,levels⟩ := first front isFront
  obtain ⟨d',y,⟨rfl,rfl,_,typedRight⟩,alike',levels'⟩ := second back isBack
  -- The operands stand in the layer of the operator and in the one below, and the group takes any layer.
  obtain ⟨n,layer⟩ : ∃ n, op.layer = n + 1 := ⟨op.layer - 1,by have := op.layer_le; omega⟩
  have is : (token.kind,op) ∈ binaryOps (n + 1) :=
    (mem_binaryOps_iff _ _ _).mpr ⟨by rw [isOp,op.binaryOp_kind],layer⟩
  obtain ⟨one,tokensOne,treeOne,depthOne⟩ := exists_lift σ (Nat.zero_le (n + 1)) d
  obtain ⟨two,tokensTwo,treeTwo,depthTwo⟩ := exists_lift σ (Nat.zero_le n) d'
  have bound : bindBinary? op (d.tree : Expr σ) d'.tree =
      some (.binary op d.tree d'.tree ty ((d.tree : Expr σ).span.union (d'.tree : Expr σ).span)) := by
    rw [bindBinary?,alike.ty_eq,alike'.ty_eq,typed]
    rfl
  have derivesLeft : Derives one d.tokens d.tree (max d.depth d'.depth) :=
    ⟨tokensOne,treeOne,by omega,typedLeft⟩
  have linked := derives_binary is derivesLeft ⟨tokensTwo,treeTwo,by omega,typedRight⟩ bound
  have loosest : n + 1 ≤ outermost := layer ▸ op.layer_le.2
  obtain ⟨inside,tokensInside,treeInside,depthInside⟩ := exists_lift σ loosest (.binary one token op is two)
  have depth : inside.depth = max d.depth d'.depth := by
    rw [depthInside,Derivation.depth,depthOne,depthTwo]
  have derivesInside : Derives inside _ _ inside.depth :=
    ⟨tokensInside.trans linked.tokens_eq,treeInside.trans linked.tree_eq,Nat.le_refl _,linked.typed⟩
  have whole := derives_group opens closes derivesInside
  rw [List.cons_append,List.append_assoc,List.cons_append] at whole
  refine ⟨.group opening inside closing opens closes,_,whole,?_,?_⟩
  · exact ⟨rfl,rfl,alike,alike'⟩
  · rw [Derivation.depth,depth,height,← levels,← levels']
    exact (congrArg (· + 1) (Nat.succ_max_succ _ _)).symm

theorem prints {n : Nat} (d : Derivation n) (typed : ∀ node ∈ (d.tree : Expr σ).nodes, node.TypeChecks)
    (tokens : List Token) (kinds : tokens.map (·.kind) = (d.tree : Expr σ).kinds) :
    ∃ printing printed, Prints (d.tree : Expr σ) tokens printing printed := by
  induction d generalizing tokens with
  | literal token value is => exact prints_literal is kinds
  | group opening inside closing opens closes ih =>
    simp only [Derivation.tree,prints_withSpan]
    rw [Derivation.tree,kinds_withSpan] at kinds
    rw [forall_nodes_iff,Derivation.tree,typeChecks_withSpan,children_withSpan,← forall_nodes_iff] at typed
    exact ih typed tokens kinds
  | unary token op is operand ih =>
    rw [forall_nodes_iff] at typed
    obtain ⟨result,below⟩ := typed
    exact prints_unary result kinds fun tokens kinds => ih (below _ (by simp [Derivation.tree,children])) tokens kinds
  | tighter inside ih => exact ih typed tokens kinds
  | binary left token op is right first second =>
    rw [forall_nodes_iff] at typed
    obtain ⟨result,below⟩ := typed
    exact prints_binary result kinds
      (fun tokens kinds => first (below _ (by simp [Derivation.tree,children])) tokens kinds)
      fun tokens kinds => second (below _ (by simp [Derivation.tree,children])) tokens kinds

end Grammar

namespace Parser

open Grammar

-- The parser that accepted a formula accepts its printed form exactly if that is short enough and the tree
-- has at most one level more than groups may nest.
theorem print_accepted_iff (scope : Scope σ) (limits : Limits) (text : String) (tokens : List Token)
    (last : Token) (tokenized : Lexer.tokenize text = .ok (tokens ++ [last]))
    (plain : ∀ token ∈ tokens, Plain token.kind) (t : Expr σ) (parsed : parse scope limits text = .ok t) :
    (∃ t', parse scope limits t.print = .ok t') ↔
      Text.byteLength t.print.toList ≤ limits.maxLength ∧ t.height ≤ limits.maxDepth + 1 := by
  obtain ⟨d,same,typed,low⟩ : ∃ d : Derivation outermost, (d.tree : Expr σ) = t ∧
      (∀ node ∈ t.nodes, node.TypeChecks) ∧ t.height ≤ limits.maxHeight := by
    obtain ⟨_,⟨others,final,again,reads⟩,low⟩ := parse_ok_iff.mp parsed
    obtain ⟨rfl,_⟩ := List.append_inj' (Except.ok.inj (again.symm.trans tokenized)) rfl
    obtain ⟨d,derives⟩ := derived reads plain
    exact ⟨d,derives.tree_eq,derives.typed,low⟩
  obtain ⟨printedTokens,final,retokenized,kinds,ends⟩ := print_tokenized (parsed_tree parsed).2.spellable
  subst same
  obtain ⟨printing,printed,derives,alike,levels⟩ := prints d typed printedTokens kinds
  constructor
  · rintro ⟨t',reparsed⟩
    obtain ⟨short,⟨others,other,again,reads⟩,_⟩ := parse_ok_iff.mp reparsed
    obtain ⟨rfl,_⟩ := List.append_inj' (Except.ok.inj (again.symm.trans retokenized)) rfl
    obtain ⟨whole,found⟩ : ∃ d : Derivation outermost, Derives d others t' limits.maxDepth :=
      derived reads (derives.tokens_eq ▸ printing.plain)
    -- There is no second derivation that would need less room.
    obtain ⟨lifted,sameTokens,_,depth⟩ := exists_lift σ (Nat.zero_le outermost) printing
    have one : whole = lifted := whole.unique lifted (by rw [found.tokens_eq,sameTokens,derives.tokens_eq])
    have fits := found.fits
    rw [one,depth] at fits
    exact ⟨short,by omega⟩
  · rintro ⟨short,shallow⟩
    refine ⟨printed,parse_ok_iff.mpr ⟨short,⟨printedTokens,final,retokenized,?_⟩,?_⟩⟩
    · obtain ⟨rfl,rfl,_,typedAgain⟩ := derives
      obtain ⟨lifted,sameTokens,sameTree,depth⟩ := exists_lift σ (Nat.zero_le outermost) printing
      have behind : Ends outermost final :=
        ⟨by rw [ends]; decide,fun op is => by rw [ends] at is; cases is⟩
      have reads : Reads scope limits.maxDepth (.layered outermost lifted.tree) lifted.tokens final :=
        layered_of_readable (readable lifted) (by omega) (by rw [sameTree]; exact typedAgain) behind
      rw [sameTokens,sameTree] at reads
      exact reads
    · rw [← alike.height]
      exact low

def signedText : String := String.ofList (List.replicate 64 '-') ++ "1"

def signedTokens : List Token :=
  (List.range 64).map (fun i => ⟨.minus,⟨i,i + 1⟩⟩) ++ [⟨.int 1,⟨64,65⟩⟩]

theorem plain_signed : ∀ token ∈ signedTokens, Plain token.kind := by
  refine List.forall_mem_append.mpr ⟨?_,List.forall_mem_singleton.mpr (.inl rfl)⟩
  intro token present
  obtain ⟨i,_,rfl⟩ := List.mem_map.mp present
  exact .inr (.inr (.inr (.inl ⟨.negate,List.mem_cons_self⟩)))

theorem signed_accepted : Lexer.tokenize signedText = .ok (signedTokens ++ [⟨.ending,⟨65,65⟩⟩]) ∧
    (∀ token ∈ signedTokens, Plain token.kind) ∧ ∃ t : Expr Unit,
      parse builtinScope {} signedText = .ok t ∧ ∃ t' : Expr Unit, parse builtinScope {} t.print = .ok t' := by
  have tokenized : Lexer.tokenize signedText = .ok (signedTokens ++ [⟨.ending,⟨65,65⟩⟩]) := by decide +kernel
  have checked : builtinCheck (fun t => decide (Text.byteLength t.print.toList ≤ 8192 ∧ t.height ≤ 65)) signedText =
      true := by decide +kernel
  obtain ⟨t,parsed,fits⟩ := builtinCheck_parses checked
  exact ⟨tokenized,plain_signed,t,parsed,
    (print_accepted_iff _ _ _ _ _ tokenized plain_signed t parsed).mpr (of_decide_eq_true fits)⟩

-- Signs with an addition behind them are accepted still; but the printed form has a group around the signs,
-- one level more than may nest.
def overgrownText : String := signedText ++ "+1"

def overgrownTokens : List Token := signedTokens ++ [⟨.plus,⟨65,66⟩⟩,⟨.int 1,⟨66,67⟩⟩]

theorem overgrown_refused : Lexer.tokenize overgrownText = .ok (overgrownTokens ++ [⟨.ending,⟨67,67⟩⟩]) ∧
    (∀ token ∈ overgrownTokens, Plain token.kind) ∧ ∃ t : Expr Unit,
      parse builtinScope {} overgrownText = .ok t ∧ ¬∃ t' : Expr Unit, parse builtinScope {} t.print = .ok t' := by
  have plain : ∀ token ∈ overgrownTokens, Plain token.kind := by
    have sum : Plain .plus := .inr (.inr (.inr (.inr ⟨2,.add,by decide⟩)))
    refine List.forall_mem_append.mpr ⟨plain_signed,List.forall_mem_cons.mpr ⟨sum,?_⟩⟩
    exact List.forall_mem_singleton.mpr (.inl rfl)
  have checked : builtinCheck (fun t => (faultOf? (parse (builtinScope : Scope Unit) {} t.print)).isSome)
      overgrownText = true := by decide +kernel
  obtain ⟨t,parsed,refused⟩ := builtinCheck_parses checked
  refine ⟨by decide +kernel,plain,t,parsed,?_⟩
  rintro ⟨t',reparsed⟩
  rw [reparsed] at refused
  cases refused

end Parser
end TypedFormula
