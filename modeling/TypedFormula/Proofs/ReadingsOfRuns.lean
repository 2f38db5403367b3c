import TypedFormula.Proofs.Readings

namespace TypedFormula

def ParseState.stream (s : ParseState) : List (Except Fault Token) := .ok s.current :: s.rest

-- Exactly these tokens lie between two states.
def Consumes (s last : ParseState) (tokens : List Token) : Prop :=
  s.stream = tokens.map .ok ++ last.stream

-- The readings go on to the end of the formula or to a fault.
def Proper (s : ParseState) : Prop :=
  ∀ token, s.stream.getLast? = some (.ok token) → token.kind = .ending

namespace Consumes

variable {s middle last : ParseState} {tokens more : List Token}

theorem refl (s : ParseState) : Consumes s s [] := rfl

theorem trans (first : Consumes s middle tokens) (second : Consumes middle last more) :
    Consumes s last (tokens ++ more) := by
  unfold Consumes at *
  rw [first,second,List.map_append,List.append_assoc]

theorem current (consumed : Consumes s last tokens) : s.current = ahead tokens last.current := by
  cases tokens with
  | nil => exact Except.ok.inj (List.cons.inj consumed).1
  | cons token tokens => exact Except.ok.inj (List.cons.inj consumed).1

theorem proper (consumed : Consumes s last tokens) (ends : Proper s) : Proper last := by
  intro token final
  apply ends
  rw [consumed,List.getLast?_append,final]
  rfl

theorem length (consumed : Consumes s last tokens) :
    s.rest.length = tokens.length + last.rest.length := by
  have lengths := congrArg List.length consumed
  simp only [ParseState.stream,List.length_cons,List.length_append,List.length_map] at lengths
  omega

end Consumes

theorem Proper.rest_ne_nil {s : ParseState} (ends : Proper s) (inside : s.current.kind ≠ .ending) :
    s.rest ≠ [] := by
  intro empty
  exact inside (ends s.current (by rw [ParseState.stream,empty]; rfl))

theorem bump_consumes {s last : ParseState} (ends : Proper s) (inside : s.current.kind ≠ .ending)
    (ran : Parse.bump s = .ok () last) : Consumes s last [s.current] := by
  rcases Parse.bump_succeeds.mp ran with ⟨empty,_⟩ | ⟨token,rest,split,rfl⟩
  · exact absurd empty (ends.rest_ne_nil inside)
  · change Except.ok s.current :: s.rest = _
    rw [split]; rfl

theorem expect_consumes {s last : ParseState} {kind : TokenKind} {span : Span} (ends : Proper s)
    (inside : kind ≠ .ending) (ran : Parse.expect kind s = .ok span last) :
    s.current.kind = kind ∧ span = s.current.span ∧ Consumes s last [s.current] := by
  unfold Parse.expect at ran
  obtain ⟨token,_,ranToken,ran⟩ := bind_succeeds.mp ran
  obtain ⟨rfl,rfl⟩ := Parse.current_succeeds.mp ranToken
  split at ran
  · rename_i is
    obtain ⟨_,_,bumped,ran⟩ := bind_succeeds.mp ran
    obtain ⟨rfl,rfl⟩ := pure_succeeds.mp ran
    exact ⟨is,rfl,bump_consumes ends (by rw [is]; exact inside) bumped⟩
  · exact (throw_succeeds.mp ran).elim

variable {σ : Type}

-- Whatever the computation returns, it has read from the tokens that it consumed.
def Delivers (p : Parse (Expr σ)) (scope : Scope σ) (room : Nat) (part : Expr σ → Part σ) : Prop :=
  ∀ s last e, Proper s → p s = .ok e last →
    ∃ tokens, Consumes s last tokens ∧ Reads scope room (part e) tokens last.current

namespace Parser

def Goal.part : Goal → Expr σ → Part σ
  | .primary, e => .primary e
  | .expression, e => .layered BinaryOp.layers e

def ReadsInside (scope : Scope σ) : Nat → Inner σ → Prop
  | 0, inner => inner = none
  | room + 1, inner => ∃ parse, inner = some parse ∧
      ∀ goal : Goal, Delivers (parse goal) scope room goal.part

variable {scope : Scope σ} {limits : Limits} {inner : Inner σ} {room : Nat}

theorem nested_reads (inside : ReadsInside scope room inner) {span : Span} {s last : ParseState}
    {parse : Goal → Parse (Expr σ)} (ran : nested limits inner span s = .ok parse last) :
    last = s ∧ ∃ less, room = less + 1 ∧ ∀ goal : Goal, Delivers (parse goal) scope less goal.part := by
  cases room with
  | zero =>
    rw [show inner = none from inside] at ran
    exact (throw_succeeds.mp ran).elim
  | succ less =>
    obtain ⟨found,rfl,delivers⟩ := inside
    obtain ⟨rfl,rfl⟩ := pure_succeeds.mp ran
    exact ⟨rfl,less,rfl,delivers⟩

theorem separated_reads (element : Parse (Expr σ)) (close : TokenKind) (closed : close ≠ .comma)
    (delivers : Delivers element scope room (.layered BinaryOp.layers)) (steps : Nat)
    (s last : ParseState) (es : List (Expr σ)) (ends : Proper s) (enough : s.rest.length < steps)
    (ran : separated element close steps s = .ok es last) :
    ∃ tokens, Consumes s last tokens ∧
      Reads scope (room + 1) (.separated close es) tokens last.current ∧ last.current.kind = close := by
  induction steps generalizing s es with
  | zero => omega
  | succ steps ih =>
    unfold separated at ran
    obtain ⟨first,middle,ranFirst,ran⟩ := bind_succeeds.mp ran
    obtain ⟨tokens,consumed,reads⟩ := delivers _ _ _ ends ranFirst
    obtain ⟨token,same,ranCurrent,ran⟩ := bind_succeeds.mp ran
    obtain ⟨rfl,rfl⟩ := Parse.current_succeeds.mp ranCurrent
    split at ran
    · rename_i comma
      obtain ⟨_,behind,bumped,ran⟩ := bind_succeeds.mp ran
      obtain ⟨others,final,ranRest,ran⟩ := bind_succeeds.mp ran
      obtain ⟨rfl,rfl⟩ := pure_succeeds.mp ran
      have proper := consumed.proper ends
      have passed := bump_consumes proper (by rw [comma]; decide) bumped
      have shorter : behind.rest.length < steps := by
        have one := consumed.length
        have two := passed.length
        simp only [List.length_singleton] at two
        omega
      obtain ⟨more,consumedRest,readsRest,atClose⟩ := ih behind others (passed.proper proper) shorter ranRest
      refine ⟨tokens ++ middle.current :: more,?_,.more reads comma readsRest,atClose⟩
      exact consumed.trans (passed.trans consumedRest)
    · split at ran
      · rename_i atClose
        obtain ⟨rfl,rfl⟩ := pure_succeeds.mp ran
        exact ⟨tokens,consumed,.last reads atClose closed,atClose⟩
      · exact (throw_succeeds.mp ran).elim

-- Arguments one level further in; without a level left there are none to read.
theorem argument_reads (inside : ReadsInside scope room inner) {span : Span} {s last : ParseState}
    {e : Expr σ} (ran : (do (← nested limits inner span) .expression) s = .ok e last) :
    ∃ less, room = less + 1 ∧
      Delivers (do (← nested limits inner span) .expression) scope less (.layered BinaryOp.layers) := by
  obtain ⟨parse,middle,stepped,_⟩ := bind_succeeds.mp ran
  obtain ⟨_,less,rfl,_⟩ := nested_reads inside stepped
  refine ⟨less,rfl,?_⟩
  intro before after found ends whole
  obtain ⟨parse,middle,steppedIn,rest⟩ := bind_succeeds.mp whole
  obtain ⟨rfl,less,same,delivers⟩ := nested_reads inside steppedIn
  cases same
  exact delivers .expression _ _ _ ends rest

theorem closing_reads {args es : List (Expr σ)} {closing : Span} {s last : ParseState} (ends : Proper s)
    (inside : s.current.kind ≠ .ending)
    (ran : (do let token ← Parse.current; Parse.bump; pure (args,token.span)) s =
      .ok (es,closing) last) :
    (args,s.current.span) = (es,closing) ∧ Consumes s last [s.current] := by
  obtain ⟨token,_,ranToken,ran⟩ := bind_succeeds.mp ran
  obtain ⟨rfl,rfl⟩ := Parse.current_succeeds.mp ranToken
  obtain ⟨_,final,bumped,ran⟩ := bind_succeeds.mp ran
  obtain ⟨same,rfl⟩ := pure_succeeds.mp ran
  exact ⟨same,bump_consumes ends inside bumped⟩

theorem arguments_reads (inside : ReadsInside scope room inner) {close : TokenKind}
    (closed : close ≠ .comma) (inner_ends : close ≠ .ending) {s last : ParseState} {es : List (Expr σ)}
    {closing : Span} (ends : Proper s) (opens : s.current.kind ≠ .ending)
    (ran : arguments limits inner close s = .ok (es,closing) last) :
    ∃ tokens, Consumes s last (s.current :: tokens) ∧
      Reads scope room (.arguments close es closing) (s.current :: tokens) last.current := by
  unfold arguments at ran
  obtain ⟨opening,_,ranOpening,ran⟩ := bind_succeeds.mp ran
  obtain ⟨rfl,rfl⟩ := Parse.current_succeeds.mp ranOpening
  obtain ⟨_,after,bumped,ran⟩ := bind_succeeds.mp ran
  have opened := bump_consumes ends opens bumped
  have proper := opened.proper ends
  obtain ⟨first,_,ranFirst,ran⟩ := bind_succeeds.mp ran
  obtain ⟨rfl,rfl⟩ := Parse.current_succeeds.mp ranFirst
  split at ran
  · rename_i atClose
    obtain ⟨_,_,ranNone,ran⟩ := bind_succeeds.mp ran
    obtain ⟨rfl,rfl⟩ := pure_succeeds.mp ranNone
    obtain ⟨same,passed⟩ := closing_reads proper (by rw [atClose]; exact inner_ends) ran
    cases same
    exact ⟨_,opened.trans passed,.noArguments atClose⟩
  · obtain ⟨left,_,ranLeft,ran⟩ := bind_succeeds.mp ran
    obtain ⟨rfl,rfl⟩ := Parse.tokensLeft_succeeds.mp ranLeft
    obtain ⟨args,before,ranArgs,ran⟩ := bind_succeeds.mp ran
    obtain ⟨e,_,ranElement,_⟩ := bind_succeeds.mp ranArgs
    obtain ⟨less,rfl,delivers⟩ := argument_reads inside ranElement
    obtain ⟨tokens,consumed,reads,atClose⟩ :=
      separated_reads _ close closed delivers _ _ _ _ proper (Nat.lt_succ_self _) ranArgs
    obtain ⟨same,passed⟩ := closing_reads (consumed.proper proper)
      (by rw [atClose]; exact inner_ends) ran
    cases same
    exact ⟨_,opened.trans (consumed.trans passed),.someArguments reads atClose⟩

theorem bound_reads {α : Type} {binding : Binding α} {found : Option α} {s last : ParseState} {a : α}
    (agrees : Binding.Agrees binding found) (ran : Parse.bind binding s = .ok a last) :
    found = some a ∧ Consumes s last [] ∧ last.current = s.current ∧ last.rest = s.rest := by
  obtain ⟨notes,bound,rfl⟩ := Parse.bind_binding_succeeds.mp ran
  exact ⟨(agrees _ _).mp ⟨notes,bound⟩,rfl,rfl,rfl⟩

theorem indexer_reads (inside : ReadsInside scope room inner) {target : Option (Expr σ)} {span : Span}
    {s last : ParseState} {e : Expr σ} (ends : Proper s) (opens : s.current.kind = .leftBracket)
    (ran : indexer scope limits inner target span s = .ok e last) :
    ∃ receiver info tokens args closing, scope.indexed? target = some (receiver,info) ∧
      Consumes s last (s.current :: tokens) ∧
      Reads scope room (.arguments .rightBracket args closing) (s.current :: tokens) last.current ∧
      Scope.index? receiver info args span closing = some e := by
  unfold indexer at ran
  obtain ⟨⟨receiver,info⟩,after,ranProvided,ran⟩ := bind_succeeds.mp ran
  obtain ⟨provided,bound,current,_⟩ := bound_reads (scope.indexed_agrees target span) ranProvided
  obtain ⟨opening,_,ranOpening,ran⟩ := bind_succeeds.mp ran
  obtain ⟨rfl,rfl⟩ := Parse.current_succeeds.mp ranOpening
  obtain ⟨⟨args,closing⟩,behind,ranArgs,ran⟩ := bind_succeeds.mp ran
  obtain ⟨tokens,consumed,reads⟩ := arguments_reads inside (by decide) (by decide) (bound.proper ends)
    (by rw [current,opens]; decide) ranArgs
  obtain ⟨found,last_bound,lastCurrent,_⟩ := bound_reads (Scope.index_agrees _ _ _ _ _ _) ran
  rw [current] at consumed reads
  refine ⟨receiver,info,tokens,args,closing,provided,?_,?_,found⟩
  · simpa using bound.trans (consumed.trans last_bound)
  · rw [lastCurrent]; exact reads

theorem call_reads (inside : ReadsInside scope room inner) {name : DottedName}
    {target : Option (Expr σ)} {span : Span} {s last : ParseState} {e : Expr σ} (ends : Proper s)
    (opens : s.current.kind = .leftParen)
    (ran : call scope limits inner name span target s = .ok e last) :
    ∃ callee tokens args closing, scope.callee? name target = some callee ∧
      Consumes s last (s.current :: tokens) ∧
      Reads scope room (.arguments .rightParen args closing) (s.current :: tokens) last.current ∧
      Scope.call? callee args span closing = some e := by
  unfold call at ran
  obtain ⟨callee,after,ranCallee,ran⟩ := bind_succeeds.mp ran
  obtain ⟨resolved,bound,current,_⟩ := bound_reads (scope.callee_agrees name target) ranCallee
  obtain ⟨⟨args,closing⟩,behind,ranArgs,ran⟩ := bind_succeeds.mp ran
  obtain ⟨tokens,consumed,reads⟩ := arguments_reads inside (by decide) (by decide) (bound.proper ends)
    (by rw [current,opens]; decide) ranArgs
  obtain ⟨found,last_bound,lastCurrent,_⟩ := bound_reads (Scope.call_agrees _ _ _ _) ran
  rw [current] at consumed reads
  refine ⟨callee,tokens,args,closing,resolved,?_,?_,found⟩
  · simpa using bound.trans (consumed.trans last_bound)
  · rw [lastCurrent]; exact reads

theorem named_reads (inside : ReadsInside scope room inner) {spelling : String}
    {target : Option (Expr σ)} {s last : ParseState} {e : Expr σ} (ends : Proper s)
    (kind : s.current.kind = .name spelling)
    (ran : named scope limits inner spelling s.current.span target s = .ok e last) :
    ∃ tokens, Consumes s last tokens ∧ Reads scope room (.named target e) tokens last.current := by
  unfold named at ran
  obtain ⟨_,after,bumped,ran⟩ := bind_succeeds.mp ran
  have passed := bump_consumes ends (by rw [kind]; exact TokenKind.noConfusion) bumped
  have proper := passed.proper ends
  obtain ⟨token,_,ranToken,ran⟩ := bind_succeeds.mp ran
  obtain ⟨rfl,rfl⟩ := Parse.current_succeeds.mp ranToken
  generalize opens : after.current.kind = behind at ran
  split at ran
  · obtain ⟨callee,tokens,args,closing,resolved,consumed,reads,found⟩ := call_reads inside proper opens ran
    exact ⟨_,passed.trans consumed,.called kind opens resolved reads found⟩
  · obtain ⟨x,middle,ranMembers,ran⟩ := bind_succeeds.mp ran
    obtain ⟨walked,bound,current,_⟩ := bound_reads (scope.members_agrees _ _) ranMembers
    obtain ⟨receiver,info,tokens,args,closing,provided,consumed,reads,found⟩ :=
      indexer_reads inside (bound.proper proper) (by rw [current]; exact opens) ran
    rw [current] at consumed reads
    exact ⟨_,passed.trans (bound.trans consumed),.indexed kind opens walked provided reads found⟩
  · rename_i noCall noIndex
    obtain ⟨found,bound,current,_⟩ := bound_reads (scope.members_agrees _ _) ran
    refine ⟨_,passed.trans bound,.member kind ?_ ?_ found⟩
    · rw [current,opens]; exact noCall
    · rw [current,opens]; exact noIndex

theorem suffixes_reads (inside : ReadsInside scope room inner) (steps : Nat) (x e : Expr σ)
    (s last : ParseState) (ends : Proper s) (enough : s.rest.length ≤ steps)
    (ran : suffixes scope limits inner steps x s = .ok e last) :
    ∃ tokens, Consumes s last tokens ∧ Reads scope room (.suffixed x e) tokens last.current := by
  induction steps generalizing x s with
  | zero =>
    obtain ⟨rfl,rfl⟩ := pure_succeeds.mp ran
    refine ⟨[],.refl s,.unsuffixed ?_⟩
    intro dot
    exact ends.rest_ne_nil (by rw [dot]; decide) (List.length_eq_zero_iff.mp (Nat.le_zero.mp enough))
  | succ steps ih =>
    unfold suffixes at ran
    obtain ⟨token,_,ranToken,ran⟩ := bind_succeeds.mp ran
    obtain ⟨rfl,rfl⟩ := Parse.current_succeeds.mp ranToken
    split at ran
    · rename_i dot
      obtain ⟨_,after,bumped,ran⟩ := bind_succeeds.mp ran
      have passed := bump_consumes ends (by rw [dot]; decide) bumped
      have proper := passed.proper ends
      obtain ⟨name,_,ranName,ran⟩ := bind_succeeds.mp ran
      obtain ⟨rfl,rfl⟩ := Parse.current_succeeds.mp ranName
      generalize is : after.current.kind = kind at ran
      split at ran
      · obtain ⟨y,behind,ranNamed,ran⟩ := bind_succeeds.mp ran
        obtain ⟨tokens,consumed,reads⟩ := named_reads inside proper is ranNamed
        -- The dot alone uses a step up, so the steps last as long as there are tokens.
        have fewer : behind.rest.length ≤ steps := by
          have one := passed.length
          have two := consumed.length
          simp only [List.length_singleton] at one
          omega
        obtain ⟨others,consumedRest,readsRest⟩ := ih _ _ (consumed.proper proper) fewer ran
        rw [consumedRest.current] at reads
        refine ⟨s.current :: tokens ++ others,?_,.suffix dot reads readsRest⟩
        exact passed.trans (consumed.trans consumedRest)
      · exact (throw_succeeds.mp ran).elim
    · rename_i noDot
      obtain ⟨rfl,rfl⟩ := pure_succeeds.mp ran
      exact ⟨[],.refl _,.unsuffixed noDot⟩

theorem withSuffixes_reads (inside : ReadsInside scope room inner) {x e : Expr σ} {s last : ParseState}
    (ends : Proper s) (ran : withSuffixes scope limits inner x s = .ok e last) :
    ∃ tokens, Consumes s last tokens ∧ Reads scope room (.suffixed x e) tokens last.current := by
  unfold withSuffixes at ran
  obtain ⟨left,_,ranLeft,ran⟩ := bind_succeeds.mp ran
  obtain ⟨rfl,rfl⟩ := Parse.tokensLeft_succeeds.mp ranLeft
  exact suffixes_reads inside _ _ _ _ _ ends (Nat.le_refl _) ran

theorem unary_reads (inside : ReadsInside scope room inner) {op : UnaryOp} {s last : ParseState}
    {e : Expr σ} (ends : Proper s) (is : s.current.kind.unaryOp? = some op)
    (ran : unary limits inner op s.current.span s = .ok e last) :
    ∃ tokens, Consumes s last tokens ∧ Reads scope room (.primary e) tokens last.current := by
  unfold unary at ran
  obtain ⟨parse,_,stepped,ran⟩ := bind_succeeds.mp ran
  obtain ⟨rfl,less,rfl,delivers⟩ := nested_reads inside stepped
  obtain ⟨_,after,bumped,ran⟩ := bind_succeeds.mp ran
  have passed := bump_consumes ends (by intro none; rw [none] at is; cases is) bumped
  obtain ⟨operand,behind,ranOperand,ran⟩ := bind_succeeds.mp ran
  obtain ⟨tokens,consumed,reads⟩ := delivers .primary _ _ _ (passed.proper ends) ranOperand
  obtain ⟨typed,bound,current,_⟩ := bound_reads (bindUnary_agrees _ _ _) ran
  refine ⟨_,passed.trans (consumed.trans bound),.unary is ?_ typed⟩
  rw [List.append_nil,current]
  exact reads

theorem group_reads (inside : ReadsInside scope room inner) {s last : ParseState} {e : Expr σ}
    (ends : Proper s) (opens : s.current.kind = .leftParen)
    (ran : group scope limits inner s.current.span s = .ok e last) :
    ∃ tokens, Consumes s last tokens ∧ Reads scope room (.primary e) tokens last.current := by
  have within := inside
  unfold group at ran
  obtain ⟨parse,_,stepped,ran⟩ := bind_succeeds.mp ran
  obtain ⟨rfl,less,rfl,delivers⟩ := nested_reads inside stepped
  obtain ⟨_,after,bumped,ran⟩ := bind_succeeds.mp ran
  have passed := bump_consumes ends (by rw [opens]; decide) bumped
  obtain ⟨x,behind,ranInside,ran⟩ := bind_succeeds.mp ran
  obtain ⟨tokens,consumed,reads⟩ := delivers .expression _ _ _ (passed.proper ends) ranInside
  have proper := consumed.proper (passed.proper ends)
  obtain ⟨closing,final,ranClosing,ran⟩ := bind_succeeds.mp ran
  obtain ⟨closes,rfl,left⟩ := expect_consumes proper (by decide) ranClosing
  obtain ⟨more,consumedMore,readsMore⟩ := withSuffixes_reads within (left.proper proper) ran
  exact ⟨_,passed.trans (consumed.trans (left.trans consumedMore)),
    .group opens reads closes readsMore⟩

theorem primary_reads (inside : ReadsInside scope room inner) :
    Delivers (primary scope limits inner) scope room .primary := by
  intro s last e ends ran
  unfold primary at ran
  obtain ⟨token,_,ranToken,ran⟩ := bind_succeeds.mp ran
  obtain ⟨rfl,rfl⟩ := Parse.current_succeeds.mp ranToken
  generalize is : s.current.kind.literal? = value at ran
  cases value with
  | some value =>
    obtain ⟨_,after,bumped,ran⟩ := bind_succeeds.mp ran
    obtain ⟨rfl,rfl⟩ := pure_succeeds.mp ran
    exact ⟨_,bump_consumes ends (by intro none; rw [none] at is; cases is) bumped,.literal is⟩
  | none =>
    generalize opens : s.current.kind = kind at ran
    dsimp only at ran
    split at ran
    · exact group_reads inside ends opens ran
    · exact unary_reads inside ends (by rw [opens]; rfl) ran
    · exact unary_reads inside ends (by rw [opens]; rfl) ran
    · split at ran
      · exact (throw_succeeds.mp ran).elim
      · obtain ⟨receiver,info,tokens,args,closing,provided,consumed,reads,found⟩ :=
          indexer_reads inside ends opens ran
        exact ⟨_,consumed,.bracket opens provided reads found⟩
    · obtain ⟨tokens,consumed,reads⟩ := named_reads inside ends opens ran
      exact ⟨tokens,consumed,.name reads⟩
    · exact (throw_succeeds.mp ran).elim

theorem operand_reads (inside : ReadsInside scope room inner) :
    Delivers (operand scope limits inner) scope room (.layered 0) := by
  intro s last e ends ran
  obtain ⟨x,middle,ranPrimary,ran⟩ := bind_succeeds.mp ran
  obtain ⟨tokens,consumed,reads⟩ := primary_reads inside _ _ _ ends ranPrimary
  obtain ⟨others,consumedRest,readsRest⟩ := withSuffixes_reads inside (consumed.proper ends) ran
  rw [consumedRest.current] at reads
  exact ⟨_,consumed.trans consumedRest,.operand reads readsRest⟩

end Parser
end TypedFormula
