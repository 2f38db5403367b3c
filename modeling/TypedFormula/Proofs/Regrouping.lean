import TypedFormula.Proofs.NameResolution
import TypedFormula.Proofs.SuffixRuns

namespace TypedFormula

open TypedFormula.Expr

variable {σ α β : Type}

theorem Concur.trans {p q r : EStateM.Result Fault ParseState (Expr σ)} (one : Concur ParseState.Same (Alike Eq) p q)
    (two : Concur ParseState.Same (Alike Eq) q r) : Concur ParseState.Same (Alike Eq) p r := by
  rcases one.settled with ⟨a,s,b,t,rfl,rfl,alike,states⟩ | ⟨fault,s,other,t,rfl,rfl,causes⟩
  · rcases two.settled with ⟨_,_,c,u,⟨⟩,rfl,alikeToo,statesToo⟩ | ⟨_,_,_,_,failed,_⟩
    · exact ⟨alike.trans (fun _ _ _ first second => first.trans second) alikeToo,states.trans statesToo⟩
    · cases failed
  · rcases two.settled with ⟨_,_,_,_,ran,_⟩ | ⟨_,_,last,u,⟨⟩,rfl,causesToo⟩
    · cases ran
    · exact Eq.trans causes causesToo

namespace Parse

-- Binding moves nothing, so it makes no difference where it is done.
theorem bind_moves {r : EStateM.Result Fault ParseState (Expr σ)} {b : Binding α} {f g : α → Parse (Expr σ)}
    {s t : ParseState} (concurs : Concur ParseState.Same (Alike Eq) r ((bind b >>= f) s)) (notes : s.notes = t.notes)
    (same : ∀ a more, f a { s with notes := more } = g a { t with notes := more }) :
    Concur ParseState.Same (Alike Eq) r ((bind b >>= g) t) := by
  rw [bind_run,bind] at concurs ⊢
  rw [← notes]
  cases ran : b s.notes with
  | ok a more =>
    rw [ran] at concurs
    dsimp only at concurs ⊢
    rw [← same]
    exact concurs
  | error fault more =>
    rw [ran] at concurs
    cases r <;> exact concurs

theorem bind_bind (b : Binding α) (f : α → Binding β) : bind (b >>= f) = (do bind (f (← bind b))) := by
  funext s
  rw [bind_run,bind,bind,bind_run]
  cases b s.notes <;> rfl

end Parse

theorem DottedName.first_ofText {text first : String} {others : List String} {start : Nat}
    (begins : pieces text = first :: others) : (ofText text start).first.text = first :=
  (List.cons.inj ((texts_ofText text start).trans begins)).1

namespace Scope

-- The first of these parts is a member of the context's type.
def StartsInContext (scope : Scope σ) (parts : List String) : Prop :=
  ∃ first others m, parts = first :: others ∧ scope.HasContextMember first m

theorem StartsInContext.front {scope : Scope σ} {parts more : List String} (starts : scope.StartsInContext (parts ++ more))
    (filled : parts ≠ []) : scope.StartsInContext parts := by
  obtain ⟨first,others,m,split,has⟩ := starts
  obtain ⟨part,parts,rfl⟩ := List.exists_cons_of_ne_nil filled
  exact ⟨part,parts,m,rfl,(List.cons.inj split).1 ▸ has⟩

variable {scope : Scope σ} {whole front back : DottedName}

theorem instanceMembers_append_run (scope : Scope σ) (x : Expr σ) (segments more : List Segment) :
    scope.instanceMembers x (segments ++ more) =
      (do scope.instanceMembers (← scope.instanceMembers x segments) more) := by
  induction segments generalizing x with
  | nil => rfl
  | cons segment rest ih =>
    rw [List.cons_append,instanceMembers,instanceMembers,bind_assoc]
    exact bind_congr fun y => ih y

theorem members_of_context {name : DottedName} {typeName : String} {m : Member σ}
    (found : scope.contextMember? name.first.text = some (typeName,m)) : scope.members name none = (do
      Binding.note (.boundMember name.first.text typeName)
      scope.instanceMembers (.member .context m name.first.span) name.others) := by
  unfold members root
  rw [found]
  rfl

theorem members_cut {m : Member σ} (starts : scope.HasContextMember front.first.text m)
    (spelled : whole.texts = front.texts ++ back.texts) : Binding.Mirrors (Alike Eq) (scope.members whole none)
      (do scope.members back (some (← scope.members front none))) := by
  obtain ⟨head,others⟩ := List.cons.inj spelled
  obtain ⟨typeName,found⟩ := hasContextMember_iff.mp starts
  have foundToo : scope.contextMember? whole.first.text = some (typeName,m) :=
    (congrArg scope.contextMember? head).trans found
  have cut : SpelledAlike whole.others (front.others ++ back.parts) := others.trans List.map_append.symm
  rw [members_of_context found,members_of_context foundToo,bind_assoc]
  refine (Binding.note_mirrors _ _).bind fun _ _ _ => ?_
  have joined := instanceMembers_append_run scope (.member .context m front.first.span) front.others back.parts
  exact joined ▸ instanceMembers_mirrors ⟨rfl,trivial⟩ cut

-- A method is called on what the parts in front of its last dot denote, unless these are a type.
theorem callee_cut {m : Member σ} (starts : scope.HasContextMember front.first.text m)
    (spelled : whole.texts = front.texts ++ back.texts)
    (noType : scope.registry.get? (dotted whole.texts.dropLast) = none) :
    Binding.Mirrors CalleesAlike (scope.callee whole none)
      (do scope.callee back (some (← scope.members front none))) := by
  have filled := front.texts_ne_nil
  cases split : back.splitLast? with
  | none =>
    have alone := DottedName.texts_of_noSplit split
    rw [alone] at spelled
    obtain ⟨path,method,cut,parts,last⟩ := DottedName.splitLast_some spelled filled
    rw [spelled,List.dropLast_concat,← parts] at noType
    unfold callee
    rw [cut,split]
    dsimp only
    rw [DottedName.text_eq,noType]
    exact (members_mirrors parts .none).bind fun _ _ found => valueCallee_mirrors found last
  | some ends =>
    obtain ⟨path',method'⟩ := ends
    rw [DottedName.texts_of_splitLast split,← List.append_assoc] at spelled
    obtain ⟨path,method,cut,parts,last⟩ := DottedName.splitLast_some spelled
      (List.append_ne_nil_of_left_ne_nil filled _)
    rw [spelled,List.dropLast_concat,← parts] at noType
    unfold callee
    rw [cut,split]
    dsimp only
    rw [DottedName.text_eq,noType,← bind_assoc]
    exact (members_cut starts parts).bind fun _ _ found => valueCallee_mirrors found last

end Scope

theorem Parser.resolved_bind {scope : Scope σ} {limits : Limits} {inner : Inner σ} (kind : TokenKind) (b : Binding α)
    (members : α → Binding (Expr σ)) (callee : α → Binding (Scope.Callee σ)) (span : Span) :
    resolved scope limits inner kind (b >>= members) (b >>= callee) span =
      (do let a ← Parse.bind b; resolved scope limits inner kind (members a) (callee a) span) := by
  unfold resolved
  split
  · rw [Parse.bind_bind,bind_assoc]
  · rw [Parse.bind_bind,bind_assoc]
  · exact Parse.bind_bind b members

def Complete (readings : List (Except Cause TokenKind)) : Prop :=
  ∃ init last, readings = init ++ [last] ∧ ∀ kind, last = .ok kind → kind = .ending

section Gists

variable {kind : TokenKind} {gists : List (Except Cause TokenKind)} {s : ParseState}

theorem Complete.behind (complete : Complete gists) (front : List (Except Cause TokenKind)) :
    Complete (front ++ gists) := by
  obtain ⟨init,last,rfl,ends⟩ := complete
  exact ⟨front ++ init,last,(List.append_assoc _ _ _).symm,ends⟩

theorem Complete.proper (complete : Complete gists) (stream : s.stream.map gist = gists) : Proper s := by
  obtain ⟨init,last,rfl,ends⟩ := complete
  intro token final
  apply ends
  have same := congrArg List.getLast? stream
  rw [List.getLast?_map,final,List.getLast?_concat] at same
  exact (Option.some.inj same).symm

theorem gist_ahead {readings : List (Except Fault Token)} (shown : readings.map gist = .ok kind :: gists) :
    ∃ span rest, readings = .ok ⟨kind,span⟩ :: rest ∧ rest.map gist = gists := by
  cases readings with
  | nil => cases shown
  | cons reading rest =>
    obtain ⟨first,others⟩ := List.cons.inj shown
    cases reading with
    | ok token =>
      cases Except.ok.inj first
      exact ⟨token.span,rest,rfl,others⟩
    | error => cases first

theorem state_ahead (shown : s.stream.map gist = .ok kind :: gists) :
    ∃ span rest notes, s = ⟨⟨kind,span⟩,rest,notes⟩ ∧ rest.map gist = gists := by
  obtain ⟨token,rest,notes⟩ := s
  obtain ⟨first,others⟩ := List.cons.inj shown
  cases Except.ok.inj first
  exact ⟨token.span,rest,notes,rfl,others⟩

theorem exists_state (kind : TokenKind) (gists : List (Except Cause TokenKind)) :
    ∃ s : ParseState, s.stream.map gist = .ok kind :: gists := by
  let place : Except Cause TokenKind → Except Fault Token := fun shown =>
    (shown.map fun kind => ⟨kind,⟨0,0⟩⟩).mapError fun cause => ⟨cause,⟨0,0⟩⟩
  have placed : ∀ shown, gist (place shown) = shown := by
    intro shown
    cases shown <;> rfl
  refine ⟨⟨⟨kind,⟨0,0⟩⟩,gists.map place,[]⟩,congrArg (Except.ok kind :: ·) ?_⟩
  rw [List.map_map]
  exact List.map_id'' placed gists

end Gists

namespace Parser

-- Tokens that can be exchanged in front of the others: an operand that starts with them is the same, or
-- fails for the same cause.
def Interchange (scope : Scope σ) (limits : Limits) (room : Nat) (kinds others : List TokenKind)
    (rest : List (Except Cause TokenKind)) : Prop :=
  ∀ s t : ParseState, s.stream.map gist = kinds.map .ok ++ rest → t.stream.map gist = others.map .ok ++ rest →
    Concur ParseState.Same (Alike Eq) (operand scope limits (innerOf scope limits room) s)
      (operand scope limits (innerOf scope limits room) t)

namespace Interchange

variable {scope : Scope σ} {limits : Limits} {room : Nat} {kinds middle others more : List TokenKind}
  {rest : List (Except Cause TokenKind)}

theorem refl (scope : Scope σ) (limits : Limits) (room : Nat) (kinds : List TokenKind)
    (rest : List (Except Cause TokenKind)) : Interchange scope limits room kinds kinds rest :=
  fun s t shown shownToo => operand_mirrors (inner_mirrors scope limits room) s t (shown.trans shownToo.symm)

theorem trans (one : Interchange scope limits room kinds middle rest)
    (two : Interchange scope limits room middle others rest) (filled : middle ≠ []) :
    Interchange scope limits room kinds others rest := by
  intro s t shown shownToo
  obtain ⟨kind,middle,rfl⟩ := List.exists_cons_of_ne_nil filled
  obtain ⟨between,shownBetween⟩ := exists_state kind (middle.map .ok ++ rest)
  exact (one s between shown shownBetween).trans (two between t shownBetween shownToo)

theorem append (exchange : Interchange scope limits room kinds others (more.map .ok ++ rest)) :
    Interchange scope limits room (kinds ++ more) (others ++ more) rest := by
  intro s t shown shownToo
  rw [List.map_append,List.append_assoc] at shown shownToo
  exact exchange s t shown shownToo

end Interchange

section Names

variable {scope : Scope σ} {limits : Limits} {room : Nat} {rest : List (Except Cause TokenKind)}
  {whole front back : String} {following : TokenKind}

theorem Interchange.cut (starts : scope.StartsInContext (pieces front))
    (spelled : pieces whole = pieces front ++ pieces back) (complete : Complete (.ok following :: rest))
    (noType : following = .leftParen → scope.registry.get? (dotted (pieces whole).dropLast) = none) :
    Interchange scope limits room [.name whole] [.name front,.dot,.name back] (.ok following :: rest) := by
  intro s t shown shownToo
  have proper := (complete.behind _).proper shownToo
  obtain ⟨span,_,notes,rfl,behind⟩ := state_ahead shown
  obtain ⟨next,left,rfl,others⟩ := gist_ahead behind
  obtain ⟨start,_,notes',rfl,behindFront⟩ := state_ahead shownToo
  obtain ⟨dot,_,rfl,behindDot⟩ := gist_ahead behindFront
  obtain ⟨place,_,rfl,behindBack⟩ := gist_ahead behindDot
  obtain ⟨next',left',rfl,othersToo⟩ := gist_ahead behindBack
  have states : ParseState.Same ⟨⟨following,next⟩,left,notes⟩ ⟨⟨following,next'⟩,left',notes'⟩ :=
    congrArg (Except.ok following :: ·) (others.trans othersToo.symm)
  have inside := inner_mirrors scope limits room
  have same : (DottedName.ofText whole span.start).texts =
      (DottedName.ofText front start.start).texts ++ (DottedName.ofText back place.start).texts := by
    simp only [DottedName.texts_ofText,spelled]
  obtain ⟨first,_,m,begins,has⟩ := starts
  rw [← DottedName.first_ofText begins] at has
  rw [operand_name,operand_member .dot nofun nofun]
  -- Binding the front can wait until its dot and the name behind it are passed.
  let goesOn : Expr σ → Parse (Expr σ) := fun x =>
    resolved scope limits (innerOf scope limits room) following (scope.members (.ofText back place.start) (some x))
      (scope.callee (.ofText back place.start) (some x)) place
  refine Parse.bind_moves (s := ⟨⟨following,next'⟩,left',notes'⟩)
    (f := fun x => goesOn x >>= withSuffixes scope limits (innerOf scope limits room)) ?_ rfl ?_
  · rw [← bind_assoc,← resolved_bind]
    refine Concur.bind (resolved_mirrors inside (Scope.members_cut has same) (fun called => ?_) _ _ _ _ states)
      fun _ _ found => withSuffixes_mirrors inside found
    refine Scope.callee_cut has same ?_
    rw [DottedName.texts_ofText]
    exact noType called
  · exact fun x more => (withSuffixes_named (proper.behind more)).symm

theorem Interchange.cut_parts {front parts : List String} (starts : scope.StartsInContext (front ++ parts))
    (filledFront : front ≠ []) (filled : parts ≠ []) (plain : ∀ part ∈ front ++ parts, '.' ∉ part.toList)
    (complete : Complete (.ok following :: rest))
    (noType : following = .leftParen → scope.registry.get? (dotted (front ++ parts).dropLast) = none) :
    Interchange scope limits room [.name (dotted (front ++ parts))]
      ([TokenKind.name (dotted front)] ++ [TokenKind.dot,.name (dotted parts)]) (.ok following :: rest) := by
  have whole := pieces_dotted_plain (List.append_ne_nil_of_left_ne_nil filledFront _) plain
  have one := pieces_dotted_plain filledFront fun part present => plain part (List.mem_append_left _ present)
  have two := pieces_dotted_plain filled fun part present => plain part (List.mem_append_right _ present)
  refine .cut ?_ ?_ complete ?_
  · rw [one]
    exact starts.front filledFront
  · rw [whole,one,two]
  · rw [whole]
    exact noType

theorem enclosed_name {span place : Span} {left : List (Except Fault Token)} {notes : List Note} :
    within scope limits room .expression ⟨⟨.name front,span⟩,.ok ⟨.rightParen,place⟩ :: left,notes⟩ =
      Parse.bind (scope.members (.ofText front span.start) none) ⟨⟨.rightParen,place⟩,left,notes⟩ := by
  have alone : operand scope limits (innerOf scope limits room)
      ⟨⟨.name front,span⟩,.ok ⟨.rightParen,place⟩ :: left,notes⟩ =
        Parse.bind (scope.members (.ofText front span.start) none) ⟨⟨.rightParen,place⟩,left,notes⟩ := by
    rw [operand_member .rightParen nofun nofun,bind_run]
    cases ran : Parse.bind (scope.members (.ofText front span.start) none) ⟨⟨.rightParen,place⟩,left,notes⟩ with
    | error fault last => rfl
    | ok e last =>
      obtain ⟨_,_,rfl⟩ := Parse.bind_binding_succeeds.mp ran
      exact withSuffixes_stop TokenKind.noConfusion
  rw [within_eq,← alone]
  refine expression_operand (fun e last ran => ?_) _
  obtain ⟨_,_,rfl⟩ := Parse.bind_binding_succeeds.mp (alone.symm.trans ran)
  rfl

theorem Interchange.parenthesize (complete : Complete (.ok .dot :: rest)) : Interchange scope limits (room + 1)
    [.name front] [.leftParen,.name front,.rightParen] (.ok .dot :: rest) := by
  intro s t shown shownToo
  have proper := (complete.behind _).proper shownToo
  obtain ⟨span,_,notes,rfl,behind⟩ := state_ahead shown
  obtain ⟨dot,left,rfl,others⟩ := gist_ahead behind
  obtain ⟨opening,_,notes',rfl,behindOpening⟩ := state_ahead shownToo
  obtain ⟨start,_,rfl,behindFront⟩ := gist_ahead behindOpening
  obtain ⟨closing,_,rfl,behindClosing⟩ := gist_ahead behindFront
  obtain ⟨dot',left',rfl,othersToo⟩ := gist_ahead behindClosing
  have states : ParseState.Same ⟨⟨.dot,dot⟩,left,notes⟩ ⟨⟨.dot,dot'⟩,left',notes'⟩ :=
    congrArg (Except.ok TokenKind.dot :: ·) (others.trans othersToo.symm)
  have inside := inner_mirrors scope limits (room + 1)
  rw [operand_member .dot nofun nofun,operand_group,bind_congr_run enclosed_name]
  -- The suffixes belong to the group, and none are left for the operand.
  refine Parse.bind_moves (s := ⟨⟨.dot,dot'⟩,left',notes'⟩) (f := fun e =>
    withSuffixes scope limits (innerOf scope limits (room + 1)) (e.withSpan (opening.union closing))) ?_ rfl ?_
  · refine Concur.bind (Parse.bind_mirrors (Scope.members_mirrors (spelled_alike _ _ _) .none) _ _ states) ?_
    exact fun _ _ found => withSuffixes_mirrors inside (found.withSpan _)
  · intro e more
    have left := ((proper.behind more).behind more).behind more
    exact (withSuffixes_twice left).symm

theorem Interchange.group {kind other : TokenKind} {kinds others : List TokenKind}
    (exchange : Interchange scope limits room (kind :: kinds) (other :: others) (.ok .rightParen :: rest)) :
    Interchange scope limits (room + 1) (TokenKind.leftParen :: kind :: kinds ++ [TokenKind.rightParen])
      (TokenKind.leftParen :: other :: others ++ [TokenKind.rightParen]) rest := by
  intro s t shown shownToo
  have regroup : ∀ kind kinds, (TokenKind.leftParen :: kind :: kinds ++ [TokenKind.rightParen]).map .ok ++ rest =
      .ok TokenKind.leftParen :: .ok kind :: (kinds.map .ok ++ .ok TokenKind.rightParen :: rest) := by simp
  rw [regroup] at shown shownToo
  obtain ⟨opening,_,notes,rfl,inside⟩ := state_ahead shown
  obtain ⟨start,left,rfl,others⟩ := gist_ahead inside
  obtain ⟨opening',_,notes',rfl,insideToo⟩ := state_ahead shownToo
  obtain ⟨start',left',rfl,othersToo⟩ := gist_ahead insideToo
  have inside := inner_mirrors scope limits (room + 1)
  have operands := exchange ⟨⟨kind,start⟩,left,notes⟩ ⟨⟨other,start'⟩,left',notes'⟩
    (congrArg (Except.ok kind :: ·) others) (congrArg (Except.ok other :: ·) othersToo)
  have whole := expression_concurs (operand_mirrors (inner_mirrors scope limits room)) BinaryOp.layers operands
  rw [operand_group,operand_group,within_eq]
  refine Concur.bind whole fun e e' alike => ?_
  refine Mirrors.bind ((Parse.expect_mirrors _).bind fun _ _ _ => withSuffixes_mirrors inside (alike.withSpans _ _)) ?_
  exact fun _ _ found => withSuffixes_mirrors inside found

end Names

-- Tokens that spell a name, cut at some of its dots and with parentheses around what is in front of some of
-- these, and how deep the parentheses nest.
inductive Spells : List TokenKind → List String → Nat → Prop where
  | word {parts : List String} (filled : parts ≠ []) : Spells [.name (dotted parts)] parts 0
  | chained {kinds : List TokenKind} {front parts : List String} {depth : Nat} (before : Spells kinds front depth)
      (filled : parts ≠ []) : Spells (kinds ++ [TokenKind.dot,.name (dotted parts)]) (front ++ parts) depth
  | grouped {kinds : List TokenKind} {front parts : List String} {depth : Nat} (before : Spells kinds front depth)
      (filled : parts ≠ []) : Spells ((TokenKind.leftParen :: kinds ++ [TokenKind.rightParen]) ++
        [TokenKind.dot,.name (dotted parts)]) (front ++ parts) (depth + 1)

namespace Spells

variable {scope : Scope σ} {kinds : List TokenKind} {parts : List String} {depth : Nat}

theorem filled (spells : Spells kinds parts depth) : parts ≠ [] := by
  cases spells with
  | word filled => exact filled
  | chained before filled | grouped before filled => exact List.append_ne_nil_of_right_ne_nil _ filled

theorem kinds_ne_nil (spells : Spells kinds parts depth) : kinds ≠ [] := by
  cases spells with
  | word => exact List.cons_ne_nil _ _
  | chained | grouped => exact List.append_ne_nil_of_right_ne_nil _ (List.cons_ne_nil _ _)

theorem interchange (limits : Limits) (spells : Spells kinds parts depth) (plain : ∀ part ∈ parts, '.' ∉ part.toList)
    (starts : scope.StartsInContext parts) {room : Nat} (shallow : depth ≤ room) {following : TokenKind}
    {rest : List (Except Cause TokenKind)} (complete : Complete (.ok following :: rest))
    (noType : following = .leftParen → scope.registry.get? (dotted parts.dropLast) = none) :
    Interchange scope limits room [.name (dotted parts)] kinds (.ok following :: rest) := by
  induction spells generalizing room following rest with
  | word => exact .refl _ _ _ _ _
  | @chained kinds front parts depth before filled ih =>
    have cut : Interchange scope limits room _ _ _ := .cut_parts starts before.filled filled plain complete noType
    have exchanged := ih (fun part present => plain part (List.mem_append_left _ present))
      (starts.front before.filled) shallow (complete.behind [.ok .dot,.ok (.name (dotted parts))]) nofun
    exact cut.trans exchanged.append (List.cons_ne_nil _ _)
  | @grouped kinds front parts depth before filled ih =>
    obtain ⟨room,rfl⟩ : ∃ n, room = n + 1 := ⟨room - 1,by omega⟩
    have cut : Interchange scope limits (room + 1) _ _ _ := .cut_parts starts before.filled filled plain complete noType
    have later := complete.behind [.ok .dot,.ok (.name (dotted parts))]
    have exchanged := ih (fun part present => plain part (List.mem_append_left _ present))
      (starts.front before.filled) (Nat.le_of_succ_le_succ shallow) (later.behind [.ok .rightParen]) nofun
    obtain ⟨kind,more,rfl⟩ := List.exists_cons_of_ne_nil before.kinds_ne_nil
    have enclosed := Interchange.trans (.parenthesize later) exchanged.group (List.cons_ne_nil _ _)
    exact cut.trans enclosed.append (List.cons_ne_nil _ _)

end Spells

end Parser
end TypedFormula
