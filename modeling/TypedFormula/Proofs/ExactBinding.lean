import TypedFormula.Builtins
import TypedFormula.Proofs.ArrivalsOfRuns
import TypedFormula.Proofs.RunsOfArrivals
import TypedFormula.Proofs.WholeFormulas

namespace TypedFormula

variable {σ : Type}

-- The name of the type that a receiver is of. There is none for a context receiver without a context.
def Receiver.typeName? (scope : Scope σ) : Receiver (Expr σ) → Option String
  | .context => scope.context
  | .type name => some name
  | .value target => some target.ty.name

def Receiver.DescribedBy (scope : Scope σ) (receiver : Receiver (Expr σ)) (info : TypeInfo σ) : Prop :=
  ∃ name, receiver.typeName? scope = some name ∧ scope.registry.get? name = some info

theorem Receiver.describedBy_iff {scope : Scope σ} {receiver : Receiver (Expr σ)} {info : TypeInfo σ} :
    receiver.DescribedBy scope info ↔ scope.provider? receiver = some info := by
  cases receiver <;> simp [DescribedBy,typeName?,Scope.provider?,Option.bind_eq_some_iff]

def Expr.Bound (scope : Scope σ) (e : Expr σ) : Prop :=
  match e with
  | .literal value _ => e.ty = value.ty
  | .unary op operand _ _ => op.resultType operand.ty = some e.ty
  | .binary op left right _ _ => op.resultType left.ty right.ty = some e.ty
  | .member receiver m _ => e.ty = m.ty ∧ ∃ info, receiver.DescribedBy scope info ∧
      (if receiver.isStatic then info.findStaticMember m.name else info.findMember m.name) = some m
  | .call receiver m args _ => e.ty = m.result ∧ m.params = args.map Expr.ty ∧
      ∃ info, receiver.DescribedBy scope info ∧
        (if receiver.isStatic then info.findStaticMethod m.name m.params
          else info.findMethod m.name m.params) = some m
  | .index receiver ix args _ => e.ty = ix.result ∧ ix.params = args.map Expr.ty ∧
      receiver.isStatic = false ∧ ∃ info, receiver.DescribedBy scope info ∧ info.findIndexer ix.params = some ix

namespace WellBound

variable {scope : Scope σ} {e : Expr σ}

theorem node (bound : WellBound scope e) : e.Bound scope := by
  cases bound with
  | literal => rfl
  | unary _ typed => exact typed
  | binary _ _ typed => exact typed
  | @member receiver m _ info _ provided found =>
    refine ⟨rfl,info,Receiver.describedBy_iff.mpr provided,?_⟩
    cases kind : receiver.isStatic <;> rw [kind] at found <;> exact found
  | @call receiver m args _ info _ _ provided found =>
    have same := (MemberTable.name_of_findMethod found).2
    refine ⟨rfl,same,info,Receiver.describedBy_iff.mpr provided,?_⟩
    rw [same]
    cases kind : receiver.isStatic <;> rw [kind] at found <;> exact found
  | index _ _ dynamic provided found =>
    have same := TypeInfo.params_of_findIndexer found
    exact ⟨rfl,same,dynamic,_,Receiver.describedBy_iff.mpr provided,by rw [same]; exact found⟩

theorem nodes (bound : WellBound scope e) : ∀ node ∈ e.nodes, node.Bound scope := by
  induction e using Expr.children_induction with
  | step e below =>
    refine (Expr.forall_nodes_iff e).mpr ⟨bound.node,?_⟩
    intro child isChild
    exact below child isChild (bound.child isChild)

end WellBound

namespace Parser

variable {scope : Scope σ} {limits : Limits} {text : String} {site : Site σ} {fault : Fault}

-- The parser arrives at the site in the formula: what leads up to the site is read, and so is a token
-- behind it.
def ArrivesIn (scope : Scope σ) (limits : Limits) (text : String) (site : Site σ) : Prop :=
  Text.byteLength text.toList ≤ limits.maxLength ∧ ∃ tokens next rest outer,
    Lexer.readings text = tokens.map .ok ++ .ok next :: rest ∧
    Arrives scope site next outer limits.maxDepth (.layered BinaryOp.layers) tokens

-- The formula as a whole is the call or the access in brackets.
def IsSite (scope : Scope σ) (limits : Limits) (text : String) (site : Site σ) : Prop :=
  Text.byteLength text.toList ≤ limits.maxLength ∧ ∃ tokens last,
    Lexer.tokenize text = .ok (tokens ++ [last]) ∧
    Arrives scope site last true limits.maxDepth (.layered BinaryOp.layers) tokens

theorem IsSite.arrivesIn (isSite : IsSite scope limits text site) : ArrivesIn scope limits text site := by
  obtain ⟨short,tokens,last,tokenized,arrives⟩ := isSite
  refine ⟨short,tokens,last,[],true,?_,arrives⟩
  rw [(Lexer.tokenize_eq_iff _ _).mp tokenized,List.map_append]
  rfl

theorem isSite_call {token opening last : Token} {spelling : String} {callee : Scope.Callee σ}
    {args : List (Expr σ)} {closing : Span} {tokens : List Token}
    (short : Text.byteLength text.toList ≤ limits.maxLength)
    (tokenized : Lexer.tokenize text = .ok (token :: opening :: tokens ++ [last]))
    (is : token.kind = .name spelling) (opens : opening.kind = .leftParen)
    (resolved : scope.callee? (.ofText spelling token.span.start) none = some callee)
    (inside : Reads scope limits.maxDepth (.arguments .rightParen args closing) (opening :: tokens) last) :
    IsSite scope limits text (.call callee args token.span closing) := by
  have arrives : Arrives scope (.call callee args token.span closing) last true limits.maxDepth
      (.named none) (token :: opening :: tokens) := .called is opens resolved inside rfl
  exact ⟨short,_,last,tokenized,Arrives.layered (.inPrimary (.name arrives)) _⟩

theorem start_regular (text : String) : Regular (start text) :=
  ⟨start_proper text,fun _ present => Lexer.readings_lexical present⟩

theorem parse_fails_iff (short : Text.byteLength text.toList ≤ limits.maxLength) :
    parse scope limits text = .error fault ↔
      ∃ last, formula scope limits text (start text) = .error fault last := by
  unfold parse
  rw [run_short short,show (⟨.initial,Lexer.readings text,[]⟩ : ParseState) = start text from rfl]
  cases formula scope limits text (start text) <;> simp

-- A formula can want for a method or an indexer only within its expression.
theorem formula_fails {last : ParseState} (unmatched : fault.Unmatched)
    (failed : formula scope limits text (start text) = .error fault last) :
    ∃ after, Parse.bump (start text) = .ok () after ∧
      within scope limits limits.maxDepth .expression after = .error fault last := by
  rcases bind_fails.mp failed with here | ⟨_,after,bumped,failed⟩
  · exact absurd unmatched (Parse.bump_matched (start_regular text) here)
  refine ⟨after,bumped,?_⟩
  rcases bind_fails.mp failed with inside | ⟨e,behind,_,failed⟩
  · exact inside
  exfalso
  replace failed := Parse.current_bind_fails failed
  split at failed
  · rcases bind_fails.mp failed with thrown | ⟨_,_,thrown,_⟩
    · cases thrown
      exact absurd unmatched (by simp [Fault.Unmatched,Cause.kind])
    · cases thrown
  · dsimp only at failed
    generalize e.firstDeeperThan limits.maxHeight = place at failed
    cases place with
    | none => cases failed
    | some span =>
      cases failed
      exact absurd unmatched (by simp [Fault.Unmatched,Cause.kind])

theorem arrivesIn_of_fails (unmatched : fault.Unmatched) (failed : parse scope limits text = .error fault) :
    ∃ site, ArrivesIn scope limits text site ∧ site.Unanswered ∧ fault = site.fault := by
  rcases Nat.lt_or_ge limits.maxLength (Text.byteLength text.toList) with long | short
  · unfold parse at failed
    rw [run_long long] at failed
    cases failed
    exact absurd unmatched (by simp [Fault.Unmatched,Cause.kind])
  · obtain ⟨last,failed⟩ := (parse_fails_iff short).mp failed
    obtain ⟨after,bumped,inside⟩ := formula_fails unmatched failed
    obtain ⟨stream,proper⟩ := start_bump bumped
    have regular : Regular after := by
      refine ⟨proper,fun other present => ?_⟩
      have reading : .error other ∈ Lexer.readings text := by
        rw [← stream]
        exact List.mem_cons_of_mem _ present
      exact Lexer.readings_lexical reading
    obtain ⟨tokens,site,outer,consumed,arrives,unanswered,same⟩ :=
      within_misses _ .expression _ _ _ regular unmatched inside
    exact ⟨site,⟨short,tokens,last.current,last.rest,outer,by rw [← stream]; exact consumed,arrives⟩,
      unanswered,same⟩

theorem fails_of_arrivesIn (arrives : ArrivesIn scope limits text site) (unanswered : site.Unanswered) :
    parse scope limits text = .error site.fault := by
  obtain ⟨short,tokens,next,rest,outer,split,arrives⟩ := arrives
  have failed : Fails (formula scope limits text) (.initial :: tokens) next site.fault :=
    .bump_bind (.first (within_halts (halts arrives unanswered)))
  refine (parse_fails_iff short).mpr (failed (start text) rest (start_proper text) ?_)
  rw [ParseState.stream,start,split]
  rfl

theorem matched_of_isSite {e : Expr σ} (isSite : IsSite scope limits text site) (found : site.bind? = some e)
    (failed : parse scope limits text = .error fault) : ¬fault.Unmatched := by
  intro unmatched
  obtain ⟨short,tokens,last,tokenized,arrives⟩ := isSite
  have ends := Lexer.tokenize_ending tokenized
  obtain ⟨_,same,reads⟩ := arrives.reads rfl found ⟨by rw [ends]; decide,by rw [ends]; rfl⟩
  cases same
  obtain ⟨final,failed⟩ := (parse_fails_iff short).mp failed
  obtain ⟨after,bumped,inside⟩ := formula_fails unmatched failed
  obtain ⟨stream,proper⟩ := start_bump bumped
  obtain ⟨notes,ran⟩ := within_performs (performs reads) after [] proper (by
    rw [stream,(Lexer.tokenize_eq_iff _ _).mp tokenized,List.map_append]
    rfl)
  cases ran.symm.trans inside

theorem unmatched_fault (site : Site σ) : site.fault.Unmatched := by
  unfold Fault.Unmatched
  rw [site.kind_fault]
  cases site with
  | call => exact .inl rfl
  | index => exact .inr rfl

-- All nodes of a parsed tree are bound. A formula fails for want of a method or an indexer exactly where
-- the parser arrives at a site, receiver and arguments bound, that none is registered for; and if the
-- formula as a whole is a site, exactly if none is registered for that.
theorem parse_binds (scope : Scope σ) (limits : Limits) (text : String) :
    (∀ e, parse scope limits text = .ok e → ∀ node ∈ e.nodes, node.Bound scope) ∧
    (∀ site, ArrivesIn scope limits text site → site.Bound scope) ∧
    (∀ fault, parse scope limits text = .error fault ∧ fault.Unmatched ↔
      ∃ site, ArrivesIn scope limits text site ∧ site.Unanswered ∧ fault = site.fault) ∧
    ∀ site, IsSite scope limits text site →
      ((∃ fault, parse scope limits text = .error fault ∧ fault.cause.kind = site.kind) ↔ site.Unanswered) := by
  refine ⟨?_,?_,?_,?_⟩
  · intro e parsed
    obtain ⟨_,⟨tokens,last,_,reads⟩,_⟩ := parse_ok_iff.mp parsed
    have bound : WellBound scope e := WellBound.ofReads reads
    exact bound.nodes
  · rintro site ⟨_,tokens,next,rest,outer,_,arrives⟩
    exact arrives.bound trivial
  · intro fault
    constructor
    · rintro ⟨failed,unmatched⟩
      exact arrivesIn_of_fails unmatched failed
    · rintro ⟨site,arrives,unanswered,rfl⟩
      exact ⟨fails_of_arrivesIn arrives unanswered,unmatched_fault site⟩
  · intro site isSite
    constructor
    · rintro ⟨fault,failed,kind⟩
      have unmatched : fault.Unmatched := by
        have of := unmatched_fault site
        unfold Fault.Unmatched at *
        rwa [site.kind_fault,← kind] at of
      refine site.unanswered_iff.mpr (Option.eq_none_iff_forall_ne_some.mpr fun e found => ?_)
      exact matched_of_isSite isSite found failed unmatched
    · intro unanswered
      exact ⟨_,fails_of_arrivesIn isSite.arrivesIn unanswered,site.kind_fault⟩

theorem maximum_unanswered : ∃ site : Site Unit, IsSite ⟨Builtins.registry,none⟩ {} "Math.Max()" site ∧
    site.Unanswered ∧ ∃ fault, parse (⟨Builtins.registry,none⟩ : Scope Unit) {} "Math.Max()" = .error fault ∧
      fault.cause.kind = site.kind := by
  let names : Scope Unit := ⟨Builtins.registry,none⟩
  let closing : Token := ⟨.rightParen,⟨9,10⟩⟩
  have found : (names.callee? (.ofText "Math.Max" 0) none).isSome := by decide +kernel
  have missing : ((names.callee? (.ofText "Math.Max" 0) none).bind fun callee =>
      Scope.call? callee [] ⟨0,8⟩ closing.span).isNone := by decide +kernel
  obtain ⟨callee,resolved⟩ := Option.isSome_iff_exists.mp found
  rw [resolved] at missing
  have tokenized : Lexer.tokenize "Math.Max()" =
      .ok (⟨.name "Math.Max",⟨0,8⟩⟩ :: ⟨.leftParen,⟨8,9⟩⟩ :: [closing] ++ [⟨.ending,⟨10,10⟩⟩]) := rfl
  have isSite : IsSite names {} "Math.Max()" (.call callee [] ⟨0,8⟩ closing.span) :=
    isSite_call (by decide) tokenized rfl rfl resolved (.noArguments rfl)
  have unanswered : (Site.call callee [] ⟨0,8⟩ closing.span).Unanswered :=
    (Site.unanswered_iff _).mpr (Option.isNone_iff_eq_none.mp missing)
  exact ⟨_,isSite,unanswered,((parse_binds names {} "Math.Max()").2.2.2 _ isSite).mpr unanswered⟩

end Parser
end TypedFormula
