import TypedFormula.Proofs.NameFronts
import TypedFormula.Proofs.Rereading
import TypedFormula.Proofs.Streams

namespace TypedFormula

variable {σ : Type} {scope : Scope σ}

-- A token that can stand behind a part in place of another: one of the same kind, or the end.
def Token.Replaces (other next : Token) : Prop := other.kind = next.kind ∨ other.kind = .ending

theorem Token.Replaces.ahead {other next : Token} (replaces : other.Replaces next) (tokens : List Token) :
    (TypedFormula.ahead tokens other).Replaces (TypedFormula.ahead tokens next) := by
  cases tokens with
  | nil => exact replaces
  | cons => exact .inl rfl

def Part.isOpen : Part σ → Bool
  | .separated _ _ => true
  | _ => false

theorem Reads.before {room : Nat} {part : Part σ} {tokens : List Token} {next other : Token}
    (reads : Reads scope room part tokens next) (replaces : other.Replaces next)
    (closed : part.isOpen = false) : Reads scope room part tokens other := by
  induction reads generalizing other with
  | literal is => exact .literal is
  | group opens inside closes suffixes _ ih => exact .group opens inside closes (ih replaces rfl)
  | unary is inside typed ih => exact .unary is (ih replaces rfl) typed
  | bracket is provided inside found ih => exact .bracket is provided (ih replaces rfl) found
  | name named ih => exact .name (ih replaces rfl)
  | member is noCall noIndex found =>
    rcases replaces with same | ends
    · exact .member is (by rw [same]; exact noCall) (by rw [same]; exact noIndex) found
    · -- The end calls nothing and opens no bracket.
      exact .member is (by rw [ends]; exact TokenKind.noConfusion) (by rw [ends]; exact TokenKind.noConfusion) found
  | indexed is opens walked provided inside found ih =>
    exact .indexed is opens walked provided (ih replaces rfl) found
  | called is opens resolved inside found ih =>
    exact .called is opens resolved (ih replaces rfl) found
  | noArguments closes => exact .noArguments closes
  | someArguments inside closes => exact .someArguments inside closes
  | last | more => cases closed
  | unsuffixed stops =>
    rcases replaces with same | ends
    · exact .unsuffixed (by rw [same]; exact stops)
    · exact .unsuffixed (by rw [ends]; exact TokenKind.noConfusion)
  | suffix is named rest namedIH restIH =>
    exact .suffix is (namedIH (replaces.ahead _) rfl) (restIH replaces rfl)
  | operand first suffixes firstIH suffixesIH =>
    exact .operand (firstIH (replaces.ahead _) rfl)
      (suffixesIH replaces rfl)
  | layer left chain leftIH chainIH =>
    exact .layer (leftIH (replaces.ahead _) rfl) (chainIH replaces rfl)
  | unchained stops =>
    rcases replaces with same | ends
    · exact .unchained (by rw [same]; exact stops)
    · refine .unchained fun op is => ?_
      rw [ends] at is
      cases is
  | link is fits right typed rest rightIH restIH =>
    exact .link is fits (rightIH (replaces.ahead _) rfl) typed
      (restIH replaces rfl)

def Sourced (scope : Scope σ) (room : Nat) (tokens : List Token) (node : Expr σ) : Prop :=
  ∃ before front token last more, tokens = before ++ (front ++ token :: more) ∧ token.CutsTo last ∧
    ∀ next, next.kind = .ending → Reads scope room (.layered BinaryOp.layers node) (front ++ [last]) next

variable {room : Nat}

theorem Sourced.within {tokens : List Token} {node : Expr σ} (sourced : Sourced scope room tokens node)
    (before behind : List Token) : Sourced scope room (before ++ tokens ++ behind) node := by
  obtain ⟨first,front,token,last,more,rfl,cut,reads⟩ := sourced
  exact ⟨before ++ first,front,token,last,more ++ behind,by simp,cut,reads⟩

theorem Sourced.front {tokens : List Token} {node : Expr σ} (sourced : Sourced scope room tokens node)
    (behind : List Token) : Sourced scope room (tokens ++ behind) node := sourced.within [] behind

theorem Sourced.back {tokens : List Token} {node : Expr σ} (sourced : Sourced scope room tokens node)
    (before : List Token) : Sourced scope room (before ++ tokens) node := by
  have whole := sourced.within before []
  rw [List.append_nil] at whole
  exact whole

theorem Reads.closed {n : Nat} {e : Expr σ} {tokens : List Token} {next : Token} (le : n ≤ BinaryOp.layers)
    (ends : next.kind = .ending) (reads : Reads scope room (.layered n e) tokens next) :
    Reads scope room (.layered BinaryOp.layers e) tokens next := by
  refine Expr.layered_looser le (fun op is => ?_) reads
  rw [ends] at is
  cases is

theorem sourced_whole {n : Nat} {e : Expr σ} {tokens : List Token} (filled : tokens ≠ []) (le : n ≤ BinaryOp.layers)
    (reads : ∀ next, next.kind = .ending → Reads scope room (.layered n e) tokens next) :
    Sourced scope room tokens e := by
  obtain none | ⟨front,last,split⟩ := List.eq_nil_or_concat tokens
  · exact absurd none filled
  rw [List.concat_eq_append] at split
  subst split
  exact ⟨[],front,last,last,[],rfl,.whole,fun next ends => (reads next ends).closed le ends⟩

theorem Reads.sourced_primary {narrow : Nat} {e : Expr σ} {tokens : List Token} {next : Token}
    (reads : Reads scope narrow (.primary e) tokens next) (le : narrow ≤ room) : Sourced scope room tokens e := by
  obtain ⟨first,rest,rfl,_⟩ := reads.starts rfl
  refine sourced_whole (List.cons_ne_nil _ _) (Nat.zero_le _) fun other ends => ?_
  rw [← List.append_nil (first :: rest)]
  have alone := (reads.mono le).before (.inr ends) rfl
  exact .operand alone (.unsuffixed (by rw [ends]; exact TokenKind.noConfusion))

-- Suffixes of a tree make an operand with the tokens that lead to the tree, if what is behind these is
-- what was behind them before, or the end.
def Leads (scope : Scope σ) (room : Nat) (behind : Token) (front : List Token) (x : Expr σ) : Prop :=
  ∀ others next w, (ahead others next).Replaces behind → Reads scope room (.suffixed x w) others next →
    Reads scope room (.layered 0 w) (front ++ others) next

-- The same for a name that may go on from a tree, and for operators of a layer behind an operand.
def LeadsName (scope : Scope σ) (room : Nat) (front : List Token) (target : Option (Expr σ)) : Prop :=
  ∀ tokens others next y w, Reads scope room (.named target y) tokens (ahead others next) →
    Reads scope room (.suffixed y w) others next → Reads scope room (.layered 0 w) (front ++ (tokens ++ others)) next

def LeadsChain (scope : Scope σ) (room n : Nat) (behind : Token) (front : List Token) (x : Expr σ) : Prop :=
  ∀ others next w, (ahead others next).Replaces behind → Reads scope room (.chained n x w) others next →
    Reads scope room (.layered n w) (front ++ others) next

theorem leadsName_none : LeadsName scope room [] (none : Option (Expr σ)) := by
  intro tokens others next y w named suffixes
  rw [List.nil_append]
  exact .operand (.name named) suffixes

theorem Leads.name {front : List Token} {dot : Token} {x : Expr σ} (leads : Leads scope room dot front x)
    (is : dot.kind = .dot) : LeadsName scope room (front ++ [dot]) (some x) := by
  intro tokens others next y w named suffixes
  have reads := leads (dot :: tokens ++ others) next w (.inl rfl) (.suffix is named suffixes)
  rw [List.append_assoc]
  exact reads

-- Suffixes behind a group belong to it, and the operand takes none.
theorem leads_group {e : Expr σ} {opening closing behind : Token} {tokens : List Token}
    (opens : opening.kind = .leftParen) (inside : Reads scope room (.layered BinaryOp.layers e) tokens closing)
    (closes : closing.kind = .rightParen) :
    Leads scope (room + 1) behind (opening :: tokens ++ [closing]) (e.withSpan (opening.span.union closing.span)) := by
  intro others next w _ reads
  have alone : Reads scope (room + 1) (.suffixed w w) [] next := .unsuffixed reads.suffixed_ends
  have operand : Reads scope (room + 1) (.layered 0 w) ((opening :: tokens ++ closing :: others) ++ []) next :=
    .operand (.group opens inside closes reads) alone
  simp only [List.append_nil,List.append_assoc,List.singleton_append] at operand ⊢
  exact operand

theorem LeadsChain.link {n : Nat} {front tokens : List Token} {token behind : Token} {op : BinaryOp} {x y z : Expr σ}
    (leads : LeadsChain scope room (n + 1) token front x) (is : token.kind.binaryOp? = some op) (fits : op.layer = n + 1)
    (right : Reads scope room (.layered n y) tokens behind) (typed : bindBinary? op x y = some z) :
    LeadsChain scope room (n + 1) behind (front ++ token :: tokens) z := by
  intro more following w replaces reads
  have operand := right.before replaces rfl
  have chain := leads (token :: tokens ++ more) following w (.inl rfl) (.link is fits operand typed reads)
  simp only [List.append_assoc]
  exact chain

theorem LeadsName.leads {front tokens : List Token} {behind : Token} {target : Option (Expr σ)} {y : Expr σ}
    (leads : LeadsName scope room front target) (named : Reads scope room (.named target y) tokens behind) :
    Leads scope room behind (front ++ tokens) y := by
  intro others next w replaces suffixes
  rw [List.append_assoc]
  exact leads tokens others next y w (named.before replaces rfl) suffixes

theorem Leads.sourced {front : List Token} {behind : Token} {x : Expr σ} (leads : Leads scope room behind front x)
    (filled : front ≠ []) : Sourced scope room front x := by
  refine sourced_whole filled (Nat.zero_le _) fun next ends => ?_
  rw [← List.append_nil front]
  exact leads [] next x (.inr ends) (.unsuffixed (by rw [ends]; exact TokenKind.noConfusion))

theorem LeadsChain.sourced {n : Nat} {front : List Token} {behind : Token} {x : Expr σ}
    (leads : LeadsChain scope room n behind front x) (filled : front ≠ []) (le : n ≤ BinaryOp.layers) :
    Sourced scope room front x := by
  refine sourced_whole filled le fun next ends => ?_
  rw [← List.append_nil front]
  refine leads [] next x (.inr ends) (.unchained fun op is => ?_)
  rw [ends] at is
  cases is

def Token.PlainParts (token : Token) : Prop := ∀ spelling, token.kind = .name spelling →
  IsName spelling ∧ ∀ piece ∈ pieces spelling, plainPart piece

theorem LeadsName.sourced_front {front : List Token} {target : Option (Expr σ)} {token : Token} {spelling : String}
    {used rest : List Segment} {node : Expr σ} (leads : LeadsName scope room front target)
    (is : token.kind = .name spelling) (plain : token.PlainParts)
    (split : (DottedName.ofText spelling token.span.start).others = used ++ rest)
    (found : scope.members? ⟨(DottedName.ofText spelling token.span.start).first,used⟩ target = some node) :
    Sourced scope room (front ++ [token]) node := by
  obtain ⟨isName,parts⟩ := plain spelling is
  obtain ⟨other,shorter,cut,isShorter,same⟩ := token.cutsTo_front is isName parts split
  rw [← same] at found
  refine ⟨[],front,token,other,[],rfl,cut,fun next ends => ?_⟩
  have named : Reads scope room (.named target node) [other] next :=
    .member isShorter (by rw [ends]; exact TokenKind.noConfusion) (by rw [ends]; exact TokenKind.noConfusion) found
  have reads := leads [other] [] next node node named (.unsuffixed (by rw [ends]; exact TokenKind.noConfusion))
  exact reads.closed (Nat.zero_le _) ends

theorem LeadsName.sourced_members {front : List Token} {target : Option (Expr σ)} {token : Token} {spelling : String}
    {used rest : List Segment} {e : Expr σ} (leads : LeadsName scope room front target)
    (below : ∀ x, target = some x → ∀ node ∈ x.nodes, Sourced scope room front node)
    (is : token.kind = .name spelling) (plain : token.PlainParts)
    (split : (DottedName.ofText spelling token.span.start).others = used ++ rest)
    (found : scope.members? ⟨(DottedName.ofText spelling token.span.start).first,used⟩ target = some e) :
    ∀ node ∈ e.nodes, Sourced scope room (front ++ [token]) node := by
  intro node present
  rcases Scope.members_nodes found present with ⟨x,same,inside⟩ | ⟨shorter,more,rfl,walked⟩
  · exact (below x same node inside).front [token]
  · rw [List.append_assoc] at split
    exact leads.sourced_front is plain split walked

theorem LeadsName.sourced_callee {front : List Token} {target : Option (Expr σ)} {token : Token} {spelling : String}
    {callee : Scope.Callee σ} (leads : LeadsName scope room front target)
    (below : ∀ x, target = some x → ∀ node ∈ x.nodes, Sourced scope room front node)
    (is : token.kind = .name spelling) (plain : token.PlainParts)
    (found : scope.callee? (DottedName.ofText spelling token.span.start) target = some callee) :
    ∀ x ∈ callee.receiver.target?.toList, ∀ node ∈ x.nodes, Sourced scope room (front ++ [token]) node := by
  have value : ∀ {y : Expr σ} {method : Segment}, scope.valueCallee? y method = some callee →
      (∀ node ∈ y.nodes, Sourced scope room (front ++ [token]) node) →
      ∀ x ∈ callee.receiver.target?.toList, ∀ node ∈ x.nodes, Sourced scope room (front ++ [token]) node := by
    intro y method made nodes
    obtain ⟨info,_,rfl⟩ := Option.map_eq_some_iff.mp made
    exact List.forall_mem_singleton.mpr nodes
  unfold Scope.callee? at found
  cases split : (DottedName.ofText spelling token.span.start).splitLast? with
  | none =>
    rw [split] at found
    cases target with
    | some x => exact value found fun node present => (below x rfl node present).front [token]
    | none =>
      obtain ⟨info,_,rfl⟩ := Option.map_eq_some_iff.mp found
      exact List.forall_mem_nil _
  | some cut =>
    obtain ⟨path,method⟩ := cut
    rw [split] at found
    have walked : ∀ {y : Expr σ}, scope.members? path target = some y → scope.valueCallee? y method = some callee →
        ∀ x ∈ callee.receiver.target?.toList, ∀ node ∈ x.nodes, Sourced scope room (front ++ [token]) node := by
      intro y members made
      obtain ⟨rest,parts,first⟩ := DottedName.others_of_splitLast split
      refine value made (leads.sourced_members below is plain parts ?_)
      rw [first]
      exact members
    cases target with
    | some x =>
      obtain ⟨y,members,made⟩ := Option.bind_eq_some_iff.mp found
      exact walked members made
    | none =>
      dsimp only at found
      split at found
      · cases found
        exact List.forall_mem_nil _
      · obtain ⟨y,members,made⟩ := Option.bind_eq_some_iff.mp found
        exact walked members made

def AllSourced (scope : Scope σ) (room : Nat) (tokens : List Token) (trees : List (Expr σ)) : Prop :=
  ∀ e ∈ trees, ∀ node ∈ e.nodes, Sourced scope room tokens node

theorem AllSourced.within {tokens : List Token} {trees : List (Expr σ)} (all : AllSourced scope room tokens trees)
    (before behind : List Token) : AllSourced scope room (before ++ tokens ++ behind) trees :=
  fun e inside node present => (all e inside node present).within before behind

theorem AllSourced.back {tokens : List Token} {trees : List (Expr σ)} (all : AllSourced scope room tokens trees)
    (before : List Token) : AllSourced scope room (before ++ tokens) trees :=
  fun e inside node present => (all e inside node present).back before

theorem AllSourced.node {tokens : List Token} {e : Expr σ} (root : Sourced scope room tokens e)
    (below : AllSourced scope room tokens e.children) : ∀ node ∈ e.nodes, Sourced scope room tokens node :=
  (Expr.forall_nodes_iff e).mpr ⟨root,below⟩

def Part.Sources (scope : Scope σ) (room : Nat) (tokens : List Token) (next : Token) : Part σ → Prop
  | .primary e => ∀ node ∈ e.nodes, Sourced scope room tokens node
  | .layered _ e => ∀ node ∈ e.nodes, Sourced scope room tokens node
  | .suffixed x e => ∀ front, Leads scope room (ahead tokens next) front x →
    (∀ node ∈ x.nodes, Sourced scope room front node) → ∀ node ∈ e.nodes, Sourced scope room (front ++ tokens) node
  | .chained n x e => ∀ front, LeadsChain scope room n (ahead tokens next) front x →
    (∀ node ∈ x.nodes, Sourced scope room front node) → ∀ node ∈ e.nodes, Sourced scope room (front ++ tokens) node
  | .named target e => ∀ front, LeadsName scope room front target →
    (∀ x, target = some x → ∀ node ∈ x.nodes, Sourced scope room front node) →
      ∀ node ∈ e.nodes, Sourced scope room (front ++ tokens) node
  | .separated _ es => AllSourced scope room tokens es
  | .arguments _ es _ => AllSourced scope room tokens es

theorem LeadsName.sourced_access {front : List Token} {target : Option (Expr σ)} {token next : Token} {tokens : List Token}
    {e : Expr σ} {receiver : Receiver (Expr σ)} {args : List (Expr σ)} (leads : LeadsName scope room front target)
    (reads : Reads scope room (.named target e) (token :: tokens) next)
    (children : e.children = receiver.target?.toList ++ args)
    (made : ∀ x ∈ receiver.target?.toList, ∀ node ∈ x.nodes, Sourced scope room (front ++ [token]) node)
    (given : AllSourced scope room tokens args) : ∀ node ∈ e.nodes, Sourced scope room (front ++ token :: tokens) node := by
  have whole := (leads.leads reads).sourced (by simp)
  refine AllSourced.node whole ?_
  rw [children]
  intro child present
  rcases List.mem_append.mp present with isTarget | isArg
  · intro node inside
    have reached := (made child isTarget node inside).front tokens
    rw [List.append_assoc] at reached
    exact reached
  · intro node inside
    have reached := (given child isArg node inside).back (front ++ [token])
    rw [List.append_assoc] at reached
    exact reached

theorem Reads.sources {narrow : Nat} {part : Part σ} {tokens : List Token} {next : Token}
    (reads : Reads scope narrow part tokens next) (le : narrow ≤ room) (plain : ∀ token ∈ tokens, token.PlainParts) :
    part.Sources scope room tokens next := by
  induction reads with
  | @literal narrow token value next is =>
    have reads : Reads scope narrow (.primary (.literal value token.span)) [token] next := .literal is
    exact AllSourced.node (reads.sourced_primary le) (List.forall_mem_nil _)
  | @group narrow opening tokens e closing more whole next opens inside closes suffixes insideIH suffixesIH =>
    rw [List.cons_append] at plain
    obtain ⟨within,further⟩ := List.forall_mem_append.mp (List.forall_mem_cons.mp plain).2
    obtain ⟨_,further⟩ := List.forall_mem_cons.mp further
    obtain ⟨deep,rfl⟩ : ∃ deep, room = deep + 1 := ⟨room - 1,by omega⟩
    -- The suffixes go on from the group, so the nodes below it are taken in with its parentheses first.
    have leads : Leads scope (deep + 1) (ahead more next) _ _ :=
      leads_group opens (inside.mono (Nat.le_of_succ_le_succ le)) closes
    have below : AllSourced scope (deep + 1) (opening :: tokens ++ [closing]) e.children := by
      have nodes := insideIH (by omega) within
      intro child isChild node present
      exact (((Expr.forall_nodes_iff e).mp nodes).2 child isChild node present).within [opening] [closing]
    have grouped := AllSourced.node (leads.sourced (List.cons_ne_nil _ _))
      (by rw [Expr.children_withSpan]; exact below)
    have reached := suffixesIH le further _ leads grouped
    simp only [List.append_assoc,List.singleton_append] at reached
    exact reached
  | unary is inside typed ih =>
    have whole := Reads.sourced_primary (.unary is inside typed) le
    obtain ⟨ty,_,rfl⟩ := Option.map_eq_some_iff.mp typed
    have below := ih (by omega) fun token present => plain token (List.mem_cons_of_mem _ present)
    exact AllSourced.node whole (List.forall_mem_singleton.mpr fun node present => (below node present).back [_])
  | bracket is provided inside found ih =>
    have whole := Reads.sourced_primary (.bracket is provided inside found) le
    obtain ⟨ix,_,rfl⟩ := Option.map_eq_some_iff.mp found
    obtain ⟨_,_,same⟩ := Option.map_eq_some_iff.mp provided
    cases same
    exact AllSourced.node whole (ih le plain)
  | name named ih => exact ih le plain [] leadsName_none fun _ none => by cases none
  | @member narrow token spelling target e next is noCall noIndex found =>
    intro front leads below
    exact leads.sourced_members below is (plain _ List.mem_cons_self) (List.append_nil _).symm found
  | @indexed narrow token spelling target x receiver info opening tokens args closing e next is opens walked provided
      inside found ih =>
    intro front leads below
    obtain ⟨word,others⟩ := List.forall_mem_cons.mp plain
    have reads := (Reads.indexed is opens walked provided inside found).mono le
    have made := leads.sourced_members below is word (List.append_nil _).symm walked
    have given := ih le others
    obtain ⟨ix,_,rfl⟩ := Option.map_eq_some_iff.mp found
    obtain ⟨_,_,same⟩ := Option.map_eq_some_iff.mp provided
    cases same
    exact leads.sourced_access reads rfl (List.forall_mem_singleton.mpr made) given
  | @called narrow token spelling target callee opening tokens args closing e next is opens resolved inside found ih =>
    intro front leads below
    obtain ⟨word,others⟩ := List.forall_mem_cons.mp plain
    have reads := (Reads.called is opens resolved inside found).mono le
    have made := leads.sourced_callee below is word resolved
    have given := ih le others
    obtain ⟨m,_,rfl⟩ := Option.map_eq_some_iff.mp found
    exact leads.sourced_access reads rfl made given
  | noArguments closes => exact List.forall_mem_nil _
  | @someArguments narrow opening tokens es closing close next inside closes ih =>
    have given := ih le fun token present => plain token (List.mem_cons_of_mem _ (List.mem_append_left _ present))
    exact given.within [opening] [closing]
  | last inside closes closed ih => exact List.forall_mem_singleton.mpr (ih (by omega) plain)
  | @more narrow tokens e es comma others close next inside is rest insideIH restIH =>
    obtain ⟨within,further⟩ := List.forall_mem_append.mp plain
    obtain ⟨_,further⟩ := List.forall_mem_cons.mp further
    refine List.forall_mem_cons.mpr ⟨fun node present => (insideIH (by omega) within node present).front _,?_⟩
    have behind := (restIH le further).back (tokens ++ [comma])
    rw [List.append_assoc] at behind
    exact behind
  | unsuffixed | unchained =>
    intro front _ below
    rw [List.append_nil]
    exact below
  | @suffix narrow dot tokens x y others e next is named rest namedIH restIH =>
    rw [List.cons_append] at plain
    obtain ⟨within,further⟩ := List.forall_mem_append.mp (List.forall_mem_cons.mp plain).2
    intro front leads below
    have onward : LeadsName scope room (front ++ [dot]) (some x) := Leads.name leads is
    have middle := namedIH le within (front ++ [dot]) onward (by
      rintro _ ⟨⟩ node present
      exact (below node present).front [dot])
    have reached := restIH le further (front ++ [dot] ++ tokens) (onward.leads (named.mono le)) middle
    simp only [List.append_assoc] at reached ⊢
    exact reached
  | @operand narrow tokens x others e next first suffixes firstIH suffixesIH =>
    obtain ⟨within,further⟩ := List.forall_mem_append.mp plain
    refine suffixesIH le further tokens ?_ (firstIH le within)
    intro others next w replaces reads
    exact .operand ((first.mono le).before replaces rfl) reads
  | @layer narrow n tokens x others e next left chain leftIH chainIH =>
    obtain ⟨within,further⟩ := List.forall_mem_append.mp plain
    refine chainIH le further tokens ?_ (leftIH le within)
    intro others next w replaces reads
    exact .layer ((left.mono le).before replaces rfl) reads
  | @link narrow n token op tokens x y z others e next is fits right typed rest rightIH restIH =>
    rw [List.cons_append] at plain
    obtain ⟨within,further⟩ := List.forall_mem_append.mp (List.forall_mem_cons.mp plain).2
    intro front leads below
    have onward := LeadsChain.link leads is fits (right.mono le) typed
    have whole := onward.sourced (by simp) (fits ▸ (Expr.layer_fits op).2)
    have operand := rightIH le within
    -- The operator is read with both operands, but without the links that follow.
    have both : ∀ node ∈ z.nodes, Sourced scope room (front ++ token :: tokens) node := by
      obtain ⟨ty,_,rfl⟩ := Option.map_eq_some_iff.mp typed
      refine AllSourced.node whole (List.forall_mem_cons.mpr ⟨?_,List.forall_mem_singleton.mpr ?_⟩)
      · exact fun node present => (below node present).front _
      · intro node present
        have reached := (operand node present).back (front ++ [token])
        rw [List.append_assoc] at reached
        exact reached
    have reached := restIH le further (front ++ token :: tokens) onward both
    simp only [List.append_assoc] at reached ⊢
    exact reached

end TypedFormula
