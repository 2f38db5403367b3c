import TypedFormula.Proofs.Arrivals
import TypedFormula.Proofs.Lexing
import TypedFormula.Proofs.OperatorLayers

namespace TypedFormula

def Fault.Unmatched (fault : Fault) : Prop :=
  fault.cause.kind = .noMatchingMethod ∨ fault.cause.kind = .noMatchingIndexer

theorem Cause.isLexical_matched {cause : Cause} (lexical : cause.isLexical = true) (span : Span) :
    ¬Fault.Unmatched ⟨cause,span⟩ := by
  intro unmatched
  cases cause <;>
    first
    | exact Bool.false_ne_true lexical
    | rcases unmatched with kind | kind <;> cases kind

namespace Binding

-- A step of binding that never fails for want of a method or an indexer.
def Matched {α : Type} (binding : Binding α) : Prop :=
  ∀ notes fault more, binding notes = .error fault more → ¬fault.Unmatched

variable {α β : Type}

theorem matched_pure (a : α) : Matched (pure a) := fun _ _ _ failed => by cases failed

theorem matched_throw {fault : Fault} (other : ¬fault.Unmatched) : Matched (throw fault : Binding α) := by
  intro notes same more failed
  cases failed
  exact other

theorem matched_bind {first : Binding α} {next : α → Binding β} (one : Matched first)
    (two : ∀ a, Matched (next a)) : Matched (first >>= next) := by
  intro notes fault more failed
  rcases bind_fails.mp failed with here | ⟨a,middle,_,there⟩
  · exact one _ _ _ here
  · exact two a _ _ _ there

theorem matched_note {binding : Binding α} (n : Note) (matched : Matched binding) :
    Matched (note n >>= fun _ => binding) :=
  fun notes => matched (n :: notes)

end Binding

namespace Scope

open Binding

variable {σ : Type} (scope : Scope σ)

theorem instanceMember_matched (target : Expr σ) (segment : Segment) :
    Matched (scope.instanceMember target segment) := by
  unfold instanceMember
  split
  · exact matched_throw (by simp [Fault.Unmatched,Cause.kind])
  · exact matched_note _ (matched_pure _)

theorem instanceMembers_matched (target : Expr σ) (segments : List Segment) :
    Matched (scope.instanceMembers target segments) := by
  induction segments generalizing target with
  | nil => exact matched_pure _
  | cons segment rest ih => exact matched_bind (scope.instanceMember_matched target segment) ih

theorem staticMember_matched (info : TypeInfo σ) (type : DottedName) (segment : Segment) :
    Matched (staticMember info type segment) := by
  unfold staticMember
  split
  · exact matched_throw (by simp [Fault.Unmatched,Cause.kind])
  · exact matched_note _ (matched_pure _)

theorem unresolved_matched (first : Segment) (alone : Bool) : ¬(scope.unresolved first alone).Unmatched := by
  unfold unresolved
  split
  · simp [Fault.Unmatched,Cause.kind]
  · split <;> simp [Fault.Unmatched,Cause.kind]

theorem root_matched (name : DottedName) : Matched (scope.root name) := by
  unfold root
  split
  · exact matched_note _ (matched_pure _)
  · split
    · exact matched_bind (staticMember_matched _ _ _) fun _ => matched_pure _
    · exact matched_throw (scope.unresolved_matched _ _)

theorem members_matched (name : DottedName) (target : Option (Expr σ)) :
    Matched (scope.members name target) := by
  unfold members
  split
  · exact scope.instanceMembers_matched _ _
  · exact matched_bind (scope.root_matched name) fun found => scope.instanceMembers_matched _ _

theorem typeInfo_matched (ty : Ty) (span : Span) : Matched (scope.typeInfo ty span) := by
  unfold typeInfo
  split
  · exact matched_pure _
  · exact matched_throw (by simp [Fault.Unmatched,Cause.kind])

theorem contextInfo_matched (span : Span) : Matched (scope.contextInfo span) := by
  unfold contextInfo
  split
  · exact matched_throw (by simp [Fault.Unmatched,Cause.kind])
  · split
    · exact matched_pure _
    · exact matched_throw (by simp [Fault.Unmatched,Cause.kind])

theorem valueCallee_matched (target : Expr σ) (method : Segment) :
    Matched (scope.valueCallee target method) :=
  matched_bind (scope.typeInfo_matched _ _) fun _ => matched_pure _

theorem callee_matched (name : DottedName) (target : Option (Expr σ)) :
    Matched (scope.callee name target) := by
  unfold callee
  split
  · exact scope.valueCallee_matched _ _
  · exact matched_bind (scope.contextInfo_matched _) fun _ => matched_pure _
  · split
    · exact matched_pure _
    · exact matched_bind (scope.members_matched _ _) fun _ => scope.valueCallee_matched _ _
  · exact matched_bind (scope.members_matched _ _) fun _ => scope.valueCallee_matched _ _

theorem indexed_matched (target : Option (Expr σ)) (span : Span) : Matched (scope.indexed target span) := by
  unfold indexed
  split
  · exact matched_bind (scope.typeInfo_matched _ _) fun _ => matched_pure _
  · exact matched_bind (scope.contextInfo_matched _) fun _ => matched_pure _

end Scope

variable {σ : Type}

theorem bindUnary_matched (op : UnaryOp) (opSpan : Span) (operand : Expr σ) :
    Binding.Matched (bindUnary op opSpan operand) := by
  unfold bindUnary
  split
  · exact Binding.matched_pure _
  · exact Binding.matched_throw (by simp [Fault.Unmatched,Cause.kind])

theorem bindBinary_matched (op : BinaryOp) (opSpan : Span) (left right : Expr σ) :
    Binding.Matched (bindBinary op opSpan left right) := by
  unfold bindBinary
  split
  · exact Binding.matched_pure _
  · exact Binding.matched_throw (by simp [Fault.Unmatched,Cause.kind])

-- The readings go on to the end or to a fault, and all faults among them are those of lexemes.
structure Regular (s : ParseState) : Prop where
  ends : Proper s
  lexical : ∀ fault, .error fault ∈ s.rest → fault.cause.isLexical = true

theorem Consumes.regular {s last : ParseState} {tokens : List Token} (consumed : Consumes s last tokens)
    (regular : Regular s) : Regular last := by
  refine ⟨consumed.proper regular.ends,fun fault present => regular.lexical fault ?_⟩
  have inStream : Except.error fault ∈ s.stream := by
    rw [consumed]
    exact List.mem_append_right _ (List.mem_cons_of_mem _ present)
  rcases List.mem_cons.mp inStream with same | later
  · cases same
  · exact later

namespace Parse

variable {β : Type} {s last : ParseState} {fault : Fault}

-- A move to the next token fails as the lexer does, if at all.
theorem bump_matched (regular : Regular s) (failed : bump s = .error fault last) : ¬fault.Unmatched := by
  unfold bump at failed
  split at failed
  · cases failed
  · cases failed
  · rename_i other rest split
    cases failed
    exact Cause.isLexical_matched (regular.lexical _ (by rw [split]; exact List.mem_cons_self)) _

theorem bump_bind_fails {next : Unit → Parse β} (regular : Regular s) (unmatched : fault.Unmatched)
    (inside : s.current.kind ≠ .ending) (failed : (bump >>= next) s = .error fault last) :
    ∃ after, Consumes s after [s.current] ∧ next () after = .error fault last := by
  rcases bind_fails.mp failed with here | ⟨_,after,bumped,there⟩
  · exact absurd unmatched (bump_matched regular here)
  · exact ⟨after,bump_consumes regular.ends inside bumped,there⟩

theorem current_bind_fails {next : Token → Parse β} (failed : (current >>= next) s = .error fault last) :
    next s.current s = .error fault last :=
  failed

theorem expect_matched {kind : TokenKind} (regular : Regular s) (inside : kind ≠ .ending)
    (failed : expect kind s = .error fault last) : ¬fault.Unmatched := by
  intro unmatched
  unfold expect at failed
  replace failed := current_bind_fails failed
  split at failed
  · rename_i is
    obtain ⟨_,_,done⟩ := bump_bind_fails regular unmatched (by rw [is]; exact inside) failed
    cases done
  · cases failed
    exact absurd unmatched (by simp [Fault.Unmatched,Cause.kind])

theorem tokensLeft_bind_fails {next : Nat → Parse β} (failed : (tokensLeft >>= next) s = .error fault last) :
    next s.rest.length s = .error fault last :=
  failed

theorem binding_fails {α : Type} {binding : Binding α}
    (failed : Parse.bind binding s = .error fault last) :
    Consumes s last [] ∧ last.current = s.current ∧ ∃ more, binding s.notes = .error fault more := by
  unfold Parse.bind at failed
  split at failed
  · cases failed
  · rename_i other notes ran
    cases failed
    exact ⟨rfl,rfl,notes,ran⟩

theorem binding_matched {α : Type} {binding : Binding α} (matched : binding.Matched)
    (failed : Parse.bind binding s = .error fault last) : ¬fault.Unmatched := by
  obtain ⟨_,_,more,ran⟩ := binding_fails failed
  exact matched _ _ _ ran

theorem binding_bind_fails {α : Type} {binding : Binding α} {found : Option α} {next : α → Parse β}
    (agrees : Binding.Agrees binding found) (matched : binding.Matched) (unmatched : fault.Unmatched)
    (failed : (Parse.bind binding >>= next) s = .error fault last) :
    ∃ a after, found = some a ∧ Consumes s after [] ∧ after.current = s.current ∧
      after.rest = s.rest ∧ next a after = .error fault last := by
  rcases bind_fails.mp failed with here | ⟨a,after,bound,there⟩
  · exact absurd unmatched (binding_matched matched here)
  · obtain ⟨same,consumed,current,rest⟩ := Parser.bound_reads agrees bound
    exact ⟨a,after,same,consumed,current,rest,there⟩

end Parse

-- The run has arrived at a site without an accessor and fails because of it.
def Arrived (scope : Scope σ) (room : Nat) (aim : Aim σ) (s last : ParseState) (fault : Fault) : Prop :=
  ∃ tokens site outer, Consumes s last tokens ∧ Arrives scope site last.current outer room aim tokens ∧
    site.Unanswered ∧ fault = site.fault

theorem Arrived.current {scope : Scope σ} {room : Nat} {aim : Aim σ} {s last : ParseState} {fault : Fault}
    (arrived : Arrived scope room aim s last fault) :
    ∃ tokens site outer, Consumes s last (s.current :: tokens) ∧
      Arrives scope site last.current outer room aim (s.current :: tokens) ∧ site.Unanswered ∧
      fault = site.fault := by
  obtain ⟨tokens,site,outer,consumed,arrives,nothing⟩ := arrived
  obtain ⟨first,rest,rfl,_⟩ := arrives.starts
  have same : s.current = first := consumed.current
  rw [same]
  exact ⟨rest,site,outer,consumed,arrives,nothing⟩

-- Whenever the computation fails for want of a method or an indexer, it has arrived.
def Misses {α : Type} (p : Parse α) (scope : Scope σ) (room : Nat) (aim : Aim σ) : Prop :=
  ∀ s last fault, Regular s → fault.Unmatched → p s = .error fault last → Arrived scope room aim s last fault

namespace Parser

def Goal.aim : Goal → Aim σ
  | .primary => .primary
  | .expression => .layered BinaryOp.layers

def MissesInside (scope : Scope σ) : Nat → Inner σ → Prop
  | 0, inner => inner = none
  | room + 1, inner => ∃ parse, inner = some parse ∧
      ∀ goal : Goal, Delivers (parse goal) scope room goal.part ∧ Misses (parse goal) scope room goal.aim

variable {scope : Scope σ} {limits : Limits} {inner : Inner σ} {room : Nat} {s last : ParseState}
  {fault : Fault}

theorem MissesInside.reads (inside : MissesInside scope room inner) : ReadsInside scope room inner := by
  cases room with
  | zero => exact inside
  | succ room =>
    obtain ⟨parse,same,both⟩ := inside
    exact ⟨parse,same,fun goal => (both goal).1⟩

theorem nested_fails {α : Type} (inside : MissesInside scope room inner) (unmatched : fault.Unmatched)
    {span : Span} {f : (Goal → Parse (Expr σ)) → Parse α}
    (failed : (nested limits inner span >>= f) s = .error fault last) :
    ∃ less parse, room = less + 1 ∧ inner = some parse ∧ f parse s = .error fault last ∧
      ∀ goal : Goal, Delivers (parse goal) scope less goal.part ∧ Misses (parse goal) scope less goal.aim := by
  cases room with
  | zero =>
    rw [show inner = none from inside] at failed
    cases failed
    exact absurd unmatched (by simp [Fault.Unmatched,Cause.kind])
  | succ less =>
    obtain ⟨parse,rfl,both⟩ := inside
    exact ⟨less,parse,rfl,rfl,failed,both⟩

theorem separated_misses {element : Parse (Expr σ)} (close : TokenKind)
    (delivers : Delivers element scope room (.layered BinaryOp.layers))
    (misses : Misses element scope room (.layered BinaryOp.layers)) (unmatched : fault.Unmatched) (steps : Nat)
    (regular : Regular s) (failed : separated element close steps s = .error fault last) :
    Arrived scope (room + 1) (.separated close) s last fault := by
  induction steps generalizing s with
  | zero => cases failed
  | succ steps ih =>
    unfold separated at failed
    rcases bind_fails.mp failed with inFirst | ⟨e,middle,ranFirst,failed⟩
    · obtain ⟨tokens,site,outer,consumed,arrives,nothing⟩ := misses _ _ _ regular unmatched inFirst
      exact ⟨tokens,site,false,consumed,.inFirst arrives,nothing⟩
    · obtain ⟨tokens,consumed,reads⟩ := delivers _ _ _ regular.ends ranFirst
      have regularThere := consumed.regular regular
      replace failed := Parse.current_bind_fails failed
      split at failed
      · rename_i comma
        obtain ⟨behind,passed,failed⟩ :=
          Parse.bump_bind_fails regularThere unmatched (by rw [comma]; decide) failed
        rcases bind_fails.mp failed with inRest | ⟨_,_,_,done⟩
        · obtain ⟨others,site,outer,consumedRest,arrives,nothing⟩ := ih (passed.regular regularThere) inRest
          exact ⟨tokens ++ middle.current :: others,site,false,consumed.trans (passed.trans consumedRest),
            .inRest reads comma arrives,nothing⟩
        · cases done
      · split at failed
        · cases failed
        · cases failed
          exact absurd unmatched (by simp [Fault.Unmatched,Cause.kind])

-- Arguments are one level further in, so there is one.
theorem argument_misses (inside : MissesInside scope room inner) (unmatched : fault.Unmatched) {span : Span}
    {close : TokenKind} {steps : Nat}
    (failed : separated (do (← nested limits inner span) .expression) close (steps + 1) s = .error fault last) :
    ∃ less, room = less + 1 ∧
      Delivers (do (← nested limits inner span) .expression) scope less (.layered BinaryOp.layers) ∧
      Misses (do (← nested limits inner span) .expression) scope less (.layered BinaryOp.layers) := by
  cases room with
  | zero =>
    rcases bind_fails.mp failed with here | ⟨e,middle,ran,_⟩
    · obtain ⟨less,_,same,_⟩ := nested_fails inside unmatched here
      cases same
    · obtain ⟨less,same,_⟩ := argument_reads inside.reads ran
      cases same
  | succ less =>
    obtain ⟨parse,rfl,both⟩ := inside
    exact ⟨less,rfl,(both .expression).1,(both .expression).2⟩

theorem closing_matched (args : List (Expr σ)) (regular : Regular s)
    (failed : (do let token ← Parse.current; Parse.bump; pure (args,token.span)) s = .error fault last) :
    ¬fault.Unmatched := by
  rcases bind_fails.mp (Parse.current_bind_fails failed) with here | ⟨_,_,_,done⟩
  · exact Parse.bump_matched regular here
  · cases done

theorem arguments_misses (inside : MissesInside scope room inner) (unmatched : fault.Unmatched)
    {close : TokenKind} (closed : close ≠ .comma) (regular : Regular s) (opens : s.current.kind ≠ .ending)
    (failed : arguments limits inner close s = .error fault last) :
    Arrived scope room (.arguments close) s last fault := by
  obtain ⟨after,passed,failed⟩ :=
    Parse.bump_bind_fails regular unmatched opens (Parse.current_bind_fails failed)
  have regularThere := passed.regular regular
  replace failed := Parse.current_bind_fails failed
  split at failed
  · exact absurd unmatched (closing_matched [] regularThere failed)
  · replace failed := Parse.tokensLeft_bind_fails failed
    rcases bind_fails.mp failed with inArgs | ⟨args,behind,ranArgs,failed⟩
    · obtain ⟨less,rfl,delivers,misses⟩ := argument_misses inside unmatched inArgs
      obtain ⟨tokens,site,outer,consumed,arrives,nothing⟩ :=
        separated_misses close delivers misses unmatched _ regularThere inArgs
      exact ⟨_,site,false,passed.trans consumed,.arguments arrives,nothing⟩
    · obtain ⟨e,_,ranElement,_⟩ := bind_succeeds.mp ranArgs
      obtain ⟨less,rfl,delivers⟩ := argument_reads inside.reads ranElement
      obtain ⟨tokens,consumed,_⟩ :=
        separated_reads _ close closed delivers _ _ _ _ regularThere.ends (Nat.lt_succ_self _) ranArgs
      exact absurd unmatched (closing_matched args (consumed.regular regularThere) failed)

theorem site_fails (site : Site σ) (failed : Parse.bind site.bind s = .error fault last) :
    Consumes s last [] ∧ last.current = s.current ∧ site.Unanswered ∧ fault = site.fault := by
  obtain ⟨consumed,current,more,ran⟩ := Parse.binding_fails failed
  exact ⟨consumed,current,Site.bind_fails ran⟩

-- Once its receiver is bound, an access fails within its arguments or behind them for want of its
-- accessor.
theorem access_misses (inside : MissesInside scope room inner) (unmatched : fault.Unmatched)
    {close : TokenKind} (closed : close ≠ .comma) (going : close ≠ .ending)
    {site : List (Expr σ) → Span → Site σ} {after : ParseState} (regular : Regular s)
    (opens : s.current.kind ≠ .ending) (bound : Consumes s after []) (current : after.current = s.current)
    (failed : (arguments limits inner close >>= fun found => Parse.bind (site found.1 found.2).bind) after =
      .error fault last) :
    Arrived scope room (.arguments close) s last fault ∨
      ∃ tokens args closing, Consumes s last (s.current :: tokens) ∧
        Reads scope room (.arguments close args closing) (s.current :: tokens) last.current ∧
        (site args closing).Unanswered ∧ fault = (site args closing).fault := by
  have regularThere := bound.regular regular
  rw [← current] at opens
  rcases bind_fails.mp failed with inArgs | ⟨⟨args,closing⟩,behind,ranArgs,failed⟩
  · obtain ⟨tokens,site,outer,consumed,arrives,nothing⟩ :=
      arguments_misses inside unmatched closed regularThere opens inArgs
    exact .inl ⟨tokens,site,outer,bound.trans consumed,arrives,nothing⟩
  · obtain ⟨tokens,consumed,reads⟩ :=
      arguments_reads inside.reads closed going regularThere.ends opens ranArgs
    obtain ⟨final,lastCurrent,nothing⟩ := site_fails (site args closing) failed
    rw [current] at consumed reads
    refine .inr ⟨tokens,args,closing,?_,?_,nothing⟩
    · simpa using bound.trans (consumed.trans final)
    · rw [lastCurrent]; exact reads

theorem indexer_misses (inside : MissesInside scope room inner) (unmatched : fault.Unmatched)
    {target : Option (Expr σ)} {span : Span} (regular : Regular s) (opens : s.current.kind = .leftBracket)
    (failed : indexer scope limits inner target span s = .error fault last) :
    ∃ receiver info, scope.indexed? target = some (receiver,info) ∧
      (Arrived scope room (.arguments .rightBracket) s last fault ∨
        ∃ tokens args closing, Consumes s last (s.current :: tokens) ∧
          Reads scope room (.arguments .rightBracket args closing) (s.current :: tokens) last.current ∧
          (Site.index receiver info args span s.current.span closing).Unanswered ∧
          fault = (Site.index receiver info args span s.current.span closing).fault) := by
  obtain ⟨⟨receiver,info⟩,after,provided,bound,current,_,failed⟩ :=
    Parse.binding_bind_fails (scope.indexed_agrees target span) (scope.indexed_matched target span) unmatched
      failed
  replace failed := Parse.current_bind_fails failed
  rw [current] at failed
  exact ⟨receiver,info,provided,access_misses inside unmatched (by decide) (by decide) regular
    (by rw [opens]; decide) bound current failed⟩

theorem call_misses (inside : MissesInside scope room inner) (unmatched : fault.Unmatched) {name : DottedName}
    {target : Option (Expr σ)} {span : Span} (regular : Regular s) (opens : s.current.kind = .leftParen)
    (failed : call scope limits inner name span target s = .error fault last) :
    ∃ callee, scope.callee? name target = some callee ∧
      (Arrived scope room (.arguments .rightParen) s last fault ∨
        ∃ tokens args closing, Consumes s last (s.current :: tokens) ∧
          Reads scope room (.arguments .rightParen args closing) (s.current :: tokens) last.current ∧
          (Site.call callee args span closing).Unanswered ∧
          fault = (Site.call callee args span closing).fault) := by
  obtain ⟨callee,after,resolved,bound,current,_,failed⟩ :=
    Parse.binding_bind_fails (scope.callee_agrees name target) (scope.callee_matched name target) unmatched
      failed
  exact ⟨callee,resolved,access_misses inside unmatched (by decide) (by decide) regular
    (by rw [opens]; decide) bound current failed⟩

theorem named_misses (inside : MissesInside scope room inner) (unmatched : fault.Unmatched) {spelling : String}
    {target : Option (Expr σ)} (regular : Regular s) (kind : s.current.kind = .name spelling)
    (failed : named scope limits inner spelling s.current.span target s = .error fault last) :
    Arrived scope room (.named target) s last fault := by
  obtain ⟨after,passed,failed⟩ :=
    Parse.bump_bind_fails regular unmatched (by rw [kind]; exact TokenKind.noConfusion) failed
  have regularThere := passed.regular regular
  replace failed := Parse.current_bind_fails failed
  generalize opens : after.current.kind = behind at failed
  split at failed
  · obtain ⟨callee,resolved,inArgs | ⟨tokens,args,closing,consumed,reads,nothing⟩⟩ :=
      call_misses inside unmatched regularThere opens failed
    · obtain ⟨tokens,site,outer,consumed,arrives,nothing⟩ := Arrived.current inArgs
      exact ⟨_,site,false,passed.trans consumed,.inCalled kind opens resolved arrives,nothing⟩
    · exact ⟨_,_,true,passed.trans consumed,.called kind opens resolved reads rfl,nothing⟩
  · obtain ⟨x,middle,walked,bound,current,_,failed⟩ :=
      Parse.binding_bind_fails (scope.members_agrees _ _) (scope.members_matched _ _) unmatched failed
    obtain ⟨receiver,info,provided,inArgs | ⟨tokens,args,closing,consumed,reads,nothing⟩⟩ :=
      indexer_misses inside unmatched (bound.regular regularThere) (by rw [current]; exact opens) failed
    · obtain ⟨tokens,site,outer,consumed,arrives,nothing⟩ := Arrived.current inArgs
      rw [current] at consumed arrives
      exact ⟨_,site,false,passed.trans (bound.trans consumed),.inIndexed kind opens walked provided arrives,
        nothing⟩
    · rw [current] at consumed reads nothing
      exact ⟨_,_,true,passed.trans (bound.trans consumed),.indexed kind opens walked provided reads rfl,
        nothing⟩
  · exact absurd unmatched (Parse.binding_matched (scope.members_matched _ _) failed)

theorem suffixes_misses (inside : MissesInside scope room inner) (unmatched : fault.Unmatched) (steps : Nat)
    (x : Expr σ) (regular : Regular s) (failed : suffixes scope limits inner steps x s = .error fault last) :
    Arrived scope room (.suffixed x) s last fault := by
  induction steps generalizing x s with
  | zero => cases failed
  | succ steps ih =>
    unfold suffixes at failed
    replace failed := Parse.current_bind_fails failed
    split at failed
    · rename_i dot
      obtain ⟨after,passed,failed⟩ := Parse.bump_bind_fails regular unmatched (by rw [dot]; decide) failed
      have regularThere := passed.regular regular
      replace failed := Parse.current_bind_fails failed
      generalize is : after.current.kind = kind at failed
      split at failed
      · rcases bind_fails.mp failed with inName | ⟨y,behind,ranNamed,failed⟩
        · obtain ⟨tokens,site,outer,consumed,arrives,nothing⟩ :=
            named_misses inside unmatched regularThere is inName
          exact ⟨_,site,outer,passed.trans consumed,.inSuffix dot arrives,nothing⟩
        · obtain ⟨tokens,consumed,reads⟩ := named_reads inside.reads regularThere.ends is ranNamed
          obtain ⟨others,site,outer,consumedRest,arrives,nothing⟩ :=
            ih _ (consumed.regular regularThere) failed
          rw [consumedRest.current] at reads
          exact ⟨s.current :: tokens ++ others,site,outer,passed.trans (consumed.trans consumedRest),
            .afterSuffix dot reads arrives,nothing⟩
      · cases failed
        exact absurd unmatched (by simp [Fault.Unmatched,Cause.kind])
    · cases failed

theorem withSuffixes_misses (inside : MissesInside scope room inner) (unmatched : fault.Unmatched) {x : Expr σ}
    (regular : Regular s) (failed : withSuffixes scope limits inner x s = .error fault last) :
    Arrived scope room (.suffixed x) s last fault :=
  suffixes_misses inside unmatched _ x regular (Parse.tokensLeft_bind_fails failed)

theorem unary_misses (inside : MissesInside scope room inner) (unmatched : fault.Unmatched) {op : UnaryOp}
    (regular : Regular s) (is : s.current.kind.unaryOp? = some op)
    (failed : unary limits inner op s.current.span s = .error fault last) :
    Arrived scope room .primary s last fault := by
  obtain ⟨less,parse,rfl,_,failed,both⟩ := nested_fails inside unmatched failed
  obtain ⟨after,passed,failed⟩ :=
    Parse.bump_bind_fails regular unmatched (by intro none; rw [none] at is; cases is) failed
  rcases bind_fails.mp failed with inOperand | ⟨operand,behind,_,failed⟩
  · obtain ⟨tokens,site,outer,consumed,arrives,nothing⟩ :=
      (both .primary).2 _ _ _ (passed.regular regular) unmatched inOperand
    exact ⟨_,site,false,passed.trans consumed,.inUnary is arrives,nothing⟩
  · exact absurd unmatched (Parse.binding_matched (bindUnary_matched _ _ _) failed)

theorem group_misses (inside : MissesInside scope room inner) (unmatched : fault.Unmatched)
    (regular : Regular s) (opens : s.current.kind = .leftParen)
    (failed : group scope limits inner s.current.span s = .error fault last) :
    Arrived scope room .primary s last fault := by
  have outside := inside
  obtain ⟨less,parse,rfl,_,failed,both⟩ := nested_fails inside unmatched failed
  obtain ⟨after,passed,failed⟩ :=
    Parse.bump_bind_fails regular unmatched (by rw [opens]; decide) failed
  have regularThere := passed.regular regular
  rcases bind_fails.mp failed with within | ⟨x,behind,ranInside,failed⟩
  · obtain ⟨tokens,site,outer,consumed,arrives,nothing⟩ :=
      (both .expression).2 _ _ _ regularThere unmatched within
    exact ⟨_,site,false,passed.trans consumed,.inGroup opens arrives,nothing⟩
  · obtain ⟨tokens,consumed,reads⟩ := (both .expression).1 _ _ _ regularThere.ends ranInside
    have regularBehind := consumed.regular regularThere
    rcases bind_fails.mp failed with noClosing | ⟨closing,final,ranClosing,failed⟩
    · exact absurd unmatched (Parse.expect_matched regularBehind (by decide) noClosing)
    · obtain ⟨closes,rfl,left⟩ := expect_consumes regularBehind.ends (by decide) ranClosing
      obtain ⟨more,site,outer,consumedMore,arrives,nothing⟩ :=
        withSuffixes_misses outside unmatched (left.regular regularBehind) failed
      exact ⟨_,site,outer,passed.trans (consumed.trans (left.trans consumedMore)),
        .afterGroup opens reads closes arrives,nothing⟩

theorem primary_misses (inside : MissesInside scope room inner) :
    Misses (primary scope limits inner) scope room .primary := by
  intro s last fault regular unmatched failed
  unfold primary at failed
  replace failed := Parse.current_bind_fails failed
  generalize is : s.current.kind.literal? = value at failed
  cases value with
  | some value =>
    obtain ⟨_,_,done⟩ := Parse.bump_bind_fails regular unmatched
      (by intro none; rw [none] at is; cases is) failed
    cases done
  | none =>
    generalize opens : s.current.kind = kind at failed
    dsimp only at failed
    split at failed
    · exact group_misses inside unmatched regular opens failed
    · exact unary_misses inside unmatched regular (by rw [opens]; rfl) failed
    · exact unary_misses inside unmatched regular (by rw [opens]; rfl) failed
    · split at failed
      · cases failed
        exact absurd unmatched (by simp [Fault.Unmatched,Cause.kind])
      · obtain ⟨receiver,info,provided,inArgs | ⟨tokens,args,closing,consumed,reads,nothing⟩⟩ :=
          indexer_misses inside unmatched regular opens failed
        · obtain ⟨tokens,site,outer,consumed,arrives,nothing⟩ := Arrived.current inArgs
          exact ⟨_,site,false,consumed,.inBracket opens provided arrives,nothing⟩
        · exact ⟨_,_,true,consumed,.bracket opens provided reads rfl,nothing⟩
    · obtain ⟨tokens,site,outer,consumed,arrives,nothing⟩ := named_misses inside unmatched regular opens failed
      exact ⟨tokens,site,outer,consumed,.name arrives,nothing⟩
    · cases failed
      exact absurd unmatched (by simp [Fault.Unmatched,Cause.kind])

theorem chain_misses {operand : Parse (Expr σ)} (n : Nat) (delivers : Delivers operand scope room (.layered n))
    (misses : Misses operand scope room (.layered n)) (unmatched : fault.Unmatched) (steps : Nat) (x : Expr σ)
    (regular : Regular s) (failed : chain operand (n + 1) steps x s = .error fault last) :
    Arrived scope room (.chained (n + 1) x) s last fault := by
  induction steps generalizing x s with
  | zero => cases failed
  | succ steps ih =>
    unfold chain at failed
    replace failed := Parse.current_bind_fails failed
    generalize is : s.current.kind.binaryOp? = found at failed
    cases found with
    | none => cases failed
    | some op =>
      dsimp only at failed
      split at failed
      · rename_i fits
        obtain ⟨after,passed,failed⟩ := Parse.bump_bind_fails regular unmatched
          (TokenKind.ne_ending_of_binaryOp is) failed
        have regularThere := passed.regular regular
        rcases bind_fails.mp failed with inRight | ⟨y,behind,ranRight,failed⟩
        · obtain ⟨tokens,site,outer,consumed,arrives,nothing⟩ := misses _ _ _ regularThere unmatched inRight
          exact ⟨_,site,false,passed.trans consumed,.inRight is fits arrives,nothing⟩
        · obtain ⟨tokens,consumed,reads⟩ := delivers _ _ _ regularThere.ends ranRight
          obtain ⟨z,later,typed,bound,current,_,failed⟩ :=
            Parse.binding_bind_fails (bindBinary_agrees _ _ _ _) (bindBinary_matched _ _ _ _) unmatched failed
          obtain ⟨others,site,outer,consumedRest,arrives,nothing⟩ :=
            ih _ (bound.regular (consumed.regular regularThere)) failed
          rw [← current,consumedRest.current] at reads
          exact ⟨s.current :: tokens ++ others,site,false,
            passed.trans (consumed.trans (bound.trans consumedRest)),.afterRight is fits reads typed arrives,
            nothing⟩
      · cases failed

theorem layered_misses {operand : Parse (Expr σ)} (delivers : Delivers operand scope room (.layered 0))
    (misses : Misses operand scope room (.layered 0)) (n : Nat) :
    Misses (layered operand n) scope room (.layered n) := by
  induction n with
  | zero => exact misses
  | succ n ih =>
    intro s last fault regular unmatched failed
    unfold layered at failed
    rcases bind_fails.mp failed with inLeft | ⟨x,middle,ranLeft,failed⟩
    · obtain ⟨tokens,site,outer,consumed,arrives,nothing⟩ := ih _ _ _ regular unmatched inLeft
      exact ⟨tokens,site,outer,consumed,.inLeft arrives,nothing⟩
    · obtain ⟨tokens,consumed,reads⟩ := layered_reads delivers n _ _ _ regular.ends ranLeft
      obtain ⟨others,site,outer,consumedRest,arrives,nothing⟩ :=
        chain_misses n (layered_reads delivers n) ih unmatched _ x (consumed.regular regular)
          (Parse.tokensLeft_bind_fails failed)
      rw [consumedRest.current] at reads
      exact ⟨_,site,false,consumed.trans consumedRest,.inChain reads arrives,nothing⟩

theorem operand_misses (inside : MissesInside scope room inner) :
    Misses (operand scope limits inner) scope room (.layered 0) := by
  intro s last fault regular unmatched failed
  rcases bind_fails.mp failed with inPrimary | ⟨x,middle,ranPrimary,failed⟩
  · obtain ⟨tokens,site,outer,consumed,arrives,nothing⟩ :=
      primary_misses inside _ _ _ regular unmatched inPrimary
    exact ⟨tokens,site,outer,consumed,.inPrimary arrives,nothing⟩
  · obtain ⟨tokens,consumed,reads⟩ := primary_reads inside.reads _ _ _ regular.ends ranPrimary
    obtain ⟨others,site,outer,consumedRest,arrives,nothing⟩ :=
      withSuffixes_misses inside unmatched (consumed.regular regular) failed
    rw [consumedRest.current] at reads
    exact ⟨_,site,outer,consumed.trans consumedRest,.afterPrimary reads arrives,nothing⟩

theorem goal_misses (inside : MissesInside scope room inner) (g : Goal) :
    Misses (goal scope limits inner g) scope room g.aim := by
  cases g with
  | primary => exact primary_misses inside
  | expression =>
    intro s last fault regular unmatched failed
    rw [goal_expression inside.reads regular.ends] at failed
    exact layered_misses (operand_reads inside.reads) (operand_misses inside) _ _ _ _ regular unmatched failed

theorem within_misses (room : Nat) (g : Goal) : Misses (within scope limits room g) scope room g.aim := by
  induction room generalizing g with
  | zero => exact goal_misses (show MissesInside scope 0 none from rfl) g
  | succ room ih =>
    have inside : MissesInside scope (room + 1) (some (within scope limits room)) :=
      ⟨_,rfl,fun goal => ⟨within_reads room goal,ih goal⟩⟩
    exact goal_misses inside g

end Parser
end TypedFormula
