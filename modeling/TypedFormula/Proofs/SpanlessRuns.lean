import Mathlib.Data.List.Forall2
import TypedFormula.Proofs.Alike
import TypedFormula.Proofs.DottedNames
import TypedFormula.Proofs.RunsOfReadings
import TypedFormula.Proofs.SpanlessLexing

namespace TypedFormula

-- Two outcomes that concur: like results in states that are the same in some sense, or the same cause.
def Concur {ρ α β : Type} (same : ρ → ρ → Prop) (like : α → β → Prop) :
    EStateM.Result Fault ρ α → EStateM.Result Fault ρ β → Prop
  | .ok a s, .ok b t => like a b ∧ same s t
  | .error fault _, .error other _ => fault.cause = other.cause
  | _, _ => False

-- Computations whose outcomes concur in all states that are the same.
def Mirrors {ρ α β : Type} (same : ρ → ρ → Prop) (like : α → β → Prop) (p : EStateM Fault ρ α)
    (q : EStateM Fault ρ β) : Prop :=
  ∀ s t, same s t → Concur same like (p s) (q t)

variable {ρ α β γ δ : Type} {same : ρ → ρ → Prop} {like : α → β → Prop} {next : γ → δ → Prop}

theorem Concur.settled {p : EStateM.Result Fault ρ α} {q : EStateM.Result Fault ρ β} (concurs : Concur same like p q) :
    (∃ a s b t, p = .ok a s ∧ q = .ok b t ∧ like a b ∧ same s t) ∨
      ∃ fault s other t, p = .error fault s ∧ q = .error other t ∧ fault.cause = other.cause := by
  match p,q with
  | .ok a s,.ok b t => exact .inl ⟨a,s,b,t,rfl,rfl,concurs.1,concurs.2⟩
  | .error fault s,.error other t => exact .inr ⟨fault,s,other,t,rfl,rfl,concurs⟩
  | .ok _ _,.error _ _ | .error _ _,.ok _ _ => exact concurs.elim

theorem Concur.bind {p : EStateM Fault ρ α} {q : EStateM Fault ρ β} {f : α → EStateM Fault ρ γ}
    {g : β → EStateM Fault ρ δ} {s t : ρ} (first : Concur same like (p s) (q t))
    (second : ∀ a b, like a b → Mirrors same next (f a) (g b)) :
    Concur same next ((p >>= f) s) ((q >>= g) t) := by
  rw [bind_run,bind_run]
  rcases first.settled with ⟨a,middle,b,last,ran,ranToo,alike,states⟩ | ⟨fault,_,other,_,ran,ranToo,causes⟩
  · rw [ran,ranToo]
    exact second a b alike middle last states
  · rw [ran,ranToo]
    exact causes

namespace Mirrors

theorem pure {a : α} {b : β} (alike : like a b) : Mirrors same like (pure a) (pure b) :=
  fun _ _ states => ⟨alike,states⟩

theorem throw {fault other : Fault} (cause : fault.cause = other.cause) :
    Mirrors same like (throw fault) (throw other) :=
  fun _ _ _ => cause

theorem bind {p : EStateM Fault ρ α} {q : EStateM Fault ρ β} {f : α → EStateM Fault ρ γ}
    {g : β → EStateM Fault ρ δ} (first : Mirrors same like p q)
    (second : ∀ a b, like a b → Mirrors same next (f a) (g b)) : Mirrors same next (p >>= f) (q >>= g) :=
  fun s t states => (first s t states).bind second

end Mirrors

open TypedFormula.Expr

variable {σ : Type}

namespace Expr

variable {x y : Expr σ} {receiver other : Receiver (Expr σ)} {args others : List (Expr σ)}

theorem Alike.ty_eq (alike : Alike Eq x y) : x.ty = y.ty := alike.ty fun _ _ same => congrArg _ same

theorem Alike.withSpans (alike : Alike Eq x y) (span other : Span) : Alike Eq (x.withSpan span) (y.withSpan other) := by
  cases x <;> cases y <;> exact alike

theorem ListsAlike.types_eq (alike : ListsAlike Eq args others) : args.map Expr.ty = others.map Expr.ty :=
  alike.map_eq fun _ _ _ same => same.ty_eq

end Expr

def SpelledAlike (segments others : List Segment) : Prop := segments.map (·.text) = others.map (·.text)

theorem SpelledAlike.cons {segment segment' : Segment} {segments others : List Segment}
    (alike : SpelledAlike (segment :: segments) (segment' :: others)) :
    segment.text = segment'.text ∧ SpelledAlike segments others := List.cons.inj alike

namespace DottedName

variable {name other : DottedName}

theorem text_alike (alike : SpelledAlike name.parts other.parts) : name.text = other.text := congrArg dotted alike

theorem cuts_alike {first first' : Segment} {segments others : List Segment} (head : first.text = first'.text)
    (alike : SpelledAlike segments others) :
    List.Forall₂ (fun cut cut' => SpelledAlike cut.1.parts cut'.1.parts ∧ cut.2.1.text = cut'.2.1.text ∧
      SpelledAlike cut.2.2 cut'.2.2) (cuts first segments) (cuts first' others) := by
  induction segments generalizing first first' others with
  | nil =>
    cases List.map_eq_nil_iff.mp alike.symm
    exact .nil
  | cons second rest ih =>
    cases others with
    | nil => cases alike
    | cons second' rest' =>
      obtain ⟨one,more⟩ := SpelledAlike.cons alike
      rw [cuts,cuts]
      refine List.rel_append ?_ (.cons ⟨congrArg (fun text => [text]) head,one,more⟩ .nil)
      rw [List.forall₂_map_left_iff,List.forall₂_map_right_iff]
      refine (ih one more).imp ?_
      rintro ⟨type,member,tail⟩ ⟨type',member',tail'⟩ ⟨parts,rest⟩
      exact ⟨congrArg₂ List.cons head parts,rest⟩

theorem splitLast_alike (alike : SpelledAlike name.parts other.parts) :
    Option.Rel (fun cut cut' => SpelledAlike cut.1.parts cut'.1.parts ∧ cut.2.text = cut'.2.text)
      name.splitLast? other.splitLast? := by
  obtain ⟨head,rest⟩ := SpelledAlike.cons alike
  cases split : name.splitLast? with
  | none =>
    have alone : other.texts = [name.first.text] := alike.symm.trans (texts_of_noSplit split)
    rw [(splitLast_none alone).1]
    exact .none
  | some cut =>
    have texts := texts_of_splitLast split
    obtain ⟨path,method,again,front,last⟩ := splitLast_some (alike.symm.trans texts) cut.1.texts_ne_nil
    rw [again]
    exact .some ⟨front.symm,last.symm⟩

end DottedName

theorem findSome_alike {f : α → Option γ} {g : β → Option δ} {xs : List α} {ys : List β}
    (alike : List.Forall₂ like xs ys) (found : ∀ a b, like a b → Option.Rel next (f a) (g b)) :
    Option.Rel next (xs.findSome? f) (ys.findSome? g) := by
  induction alike with
  | nil => exact .none
  | @cons a b xs ys one others ih =>
    rw [List.findSome?_cons,List.findSome?_cons]
    have here := found a b one
    generalize f a = first at here ⊢
    generalize g b = second at here ⊢
    cases here with
    | some related => exact .some related
    | none => exact ih

abbrev Binding.Mirrors (like : α → β → Prop) (p : Binding α) (q : Binding β) : Prop :=
  TypedFormula.Mirrors (fun _ _ => True) like p q

theorem Binding.note_mirrors (n other : Note) : Binding.Mirrors Eq (.note n) (.note other) :=
  fun _ _ _ => ⟨rfl,trivial⟩

namespace Scope

variable {scope : Scope σ} {x y : Expr σ} {segment segment' : Segment} {segments others : List Segment}
  {name other : DottedName} {target target' : Option (Expr σ)}

theorem contextInfo_mirrors (span span' : Span) :
    Binding.Mirrors Eq (scope.contextInfo span) (scope.contextInfo span') := by
  unfold contextInfo
  split
  · exact .throw rfl
  · split
    · exact .pure rfl
    · exact .throw rfl

theorem typeInfo_mirrors {ty ty' : Ty} (types : ty = ty') (span span' : Span) :
    Binding.Mirrors Eq (scope.typeInfo ty span) (scope.typeInfo ty' span') := by
  unfold typeInfo
  rw [types]
  split
  · exact .pure rfl
  · exact .throw rfl

theorem instanceMember_mirrors (alike : Alike Eq x y) (text : segment.text = segment'.text) :
    Binding.Mirrors (Alike Eq) (scope.instanceMember x segment) (scope.instanceMember y segment') := by
  unfold instanceMember
  rw [alike.ty_eq,text]
  split
  · exact .throw rfl
  · exact (Binding.note_mirrors _ _).bind fun _ _ _ => .pure ⟨rfl,alike⟩

theorem instanceMembers_mirrors (alike : Alike Eq x y) (spelled : SpelledAlike segments others) :
    Binding.Mirrors (Alike Eq) (scope.instanceMembers x segments) (scope.instanceMembers y others) := by
  induction segments generalizing x y others with
  | nil =>
    cases List.map_eq_nil_iff.mp spelled.symm
    exact .pure alike
  | cons segment rest ih =>
    cases others with
    | nil => cases spelled
    | cons segment' rest' =>
      obtain ⟨text,more⟩ := SpelledAlike.cons spelled
      exact (instanceMember_mirrors alike text).bind fun _ _ found => ih found more

theorem staticMember_mirrors (info : TypeInfo σ) (types : SpelledAlike name.parts other.parts)
    (text : segment.text = segment'.text) :
    Binding.Mirrors (Alike Eq) (staticMember info name segment) (staticMember info other segment') := by
  unfold staticMember
  rw [DottedName.text_alike types,text]
  split
  · exact .throw rfl
  · exact (Binding.note_mirrors _ _).bind fun _ _ _ => .pure ⟨rfl,rfl⟩

theorem unresolved_alike (text : segment.text = segment'.text) (alone : Bool) :
    (scope.unresolved segment alone).cause = (scope.unresolved segment' alone).cause := by
  unfold unresolved
  rw [text]
  split
  · rfl
  · split <;> rfl

theorem longestType_alike (scope : Scope σ) (alike : SpelledAlike name.parts other.parts) :
    Option.Rel (fun found found' => found.1 = found'.1 ∧ SpelledAlike found.2.1.parts found'.2.1.parts ∧
      found.2.2.1.text = found'.2.2.1.text ∧ SpelledAlike found.2.2.2 found'.2.2.2)
      (scope.longestType? name) (scope.longestType? other) := by
  obtain ⟨head,rest⟩ := SpelledAlike.cons alike
  refine findSome_alike (DottedName.cuts_alike head rest) ?_
  rintro ⟨type,member,tail⟩ ⟨type',member',tail'⟩ ⟨parts,text,left⟩
  dsimp only
  rw [DottedName.text_alike parts]
  cases scope.registry.get? type'.text with
  | none => exact .none
  | some info => exact .some ⟨rfl,parts,text,left⟩

theorem root_mirrors (alike : SpelledAlike name.parts other.parts) :
    Binding.Mirrors (fun found found' => Alike Eq found.1 found'.1 ∧ SpelledAlike found.2 found'.2)
      (scope.root name) (scope.root other) := by
  obtain ⟨head,rest⟩ := SpelledAlike.cons alike
  unfold root
  rw [head]
  split
  · exact (Binding.note_mirrors _ _).bind fun _ _ _ => .pure ⟨⟨rfl,trivial⟩,rest⟩
  · have types := longestType_alike scope alike
    cases found : scope.longestType? name with
    | none =>
      rw [found] at types
      cases found' : scope.longestType? other with
      | some => rw [found'] at types; cases types
      | none =>
        have alone : name.others.isEmpty = other.others.isEmpty := by
          rw [← List.isEmpty_map (f := Segment.text),rest,List.isEmpty_map]
        rw [alone]
        exact .throw (unresolved_alike head _)
    | some cut =>
      rw [found] at types
      cases found' : scope.longestType? other with
      | none => rw [found'] at types; cases types
      | some cut' =>
        rw [found'] at types
        cases types with
        | some same =>
          obtain ⟨info,type,segment,left⟩ := cut
          obtain ⟨info',type',segment',left'⟩ := cut'
          obtain ⟨rfl,parts,text,left⟩ := same
          exact (staticMember_mirrors info parts text).bind fun _ _ one => .pure ⟨one,left⟩

theorem members_mirrors (alike : SpelledAlike name.parts other.parts) (targets : Option.Rel (Alike Eq) target target') :
    Binding.Mirrors (Alike Eq) (scope.members name target) (scope.members other target') := by
  cases targets with
  | none => exact (root_mirrors alike).bind fun _ _ found => instanceMembers_mirrors found.1 found.2
  | some one => exact instanceMembers_mirrors one alike

structure CalleesAlike (callee callee' : Callee σ) : Prop where
  receiver : ReceiversAlike Eq callee.receiver callee'.receiver
  info : callee.info = callee'.info
  method : callee.method.text = callee'.method.text

theorem valueCallee_mirrors (alike : Alike Eq x y) (text : segment.text = segment'.text) :
    Binding.Mirrors CalleesAlike (scope.valueCallee x segment) (scope.valueCallee y segment') :=
  (typeInfo_mirrors alike.ty_eq _ _).bind fun _ _ info => .pure ⟨alike,info,text⟩

theorem callee_mirrors (alike : SpelledAlike name.parts other.parts) (targets : Option.Rel (Alike Eq) target target') :
    Binding.Mirrors CalleesAlike (scope.callee name target) (scope.callee other target') := by
  have head := (SpelledAlike.cons alike).1
  have cuts := DottedName.splitLast_alike alike
  unfold callee
  cases split : name.splitLast? with
  | none =>
    rw [split] at cuts
    cases split' : other.splitLast? with
    | some => rw [split'] at cuts; cases cuts
    | none =>
      cases targets with
      | none => exact (contextInfo_mirrors _ _).bind fun _ _ info => .pure ⟨trivial,info,head⟩
      | some one => exact valueCallee_mirrors one head
  | some cut =>
    rw [split] at cuts
    cases split' : other.splitLast? with
    | none => rw [split'] at cuts; cases cuts
    | some cut' =>
      rw [split'] at cuts
      cases cuts with
      | some same =>
        obtain ⟨path,method⟩ := cut
        obtain ⟨path',method'⟩ := cut'
        obtain ⟨parts,text⟩ := same
        cases targets with
        | some one =>
          exact (members_mirrors parts (.some one)).bind fun _ _ found => valueCallee_mirrors found text
        | none =>
          dsimp only
          rw [DottedName.text_alike parts]
          cases scope.registry.get? path'.text with
          | some info => exact .pure ⟨rfl,rfl,text⟩
          | none => exact (members_mirrors parts .none).bind fun _ _ found => valueCallee_mirrors found text

theorem isStatic_alike {callee callee' : Callee σ} (alike : CalleesAlike callee callee') :
    callee.isStatic = callee'.isStatic := by
  obtain ⟨receiver,_,_⟩ := callee
  obtain ⟨receiver',_,_⟩ := callee'
  have receivers := alike.receiver
  cases receiver <;> cases receiver' <;> first | rfl | exact receivers.elim

theorem call_mirrors {callee callee' : Callee σ} {args args' : List (Expr σ)} (alike : CalleesAlike callee callee')
    (same : ListsAlike Eq args args') (span closing span' closing' : Span) :
    Binding.Mirrors (Alike Eq) (call callee args span closing) (call callee' args' span' closing') := by
  unfold call findOverload
  dsimp only
  rw [isStatic_alike alike,alike.info,alike.method,same.types_eq]
  split
  · exact (Binding.note_mirrors _ _).bind fun _ _ _ => .pure ⟨rfl,alike.receiver,same⟩
  · exact .throw rfl

theorem indexed_mirrors (targets : Option.Rel (Alike Eq) target target') (span span' : Span) :
    Binding.Mirrors (fun found found' => ReceiversAlike Eq found.1 found'.1 ∧ found.2 = found'.2)
      (scope.indexed target span) (scope.indexed target' span') := by
  cases targets with
  | none => exact (contextInfo_mirrors _ _).bind fun _ _ info => .pure ⟨trivial,info⟩
  | some one => exact (typeInfo_mirrors one.ty_eq _ _).bind fun _ _ info => .pure ⟨one,info⟩

theorem index_mirrors {receiver receiver' : Receiver (Expr σ)} {args args' : List (Expr σ)} (info : TypeInfo σ)
    (receivers : ReceiversAlike Eq receiver receiver') (same : ListsAlike Eq args args')
    (span opening closing span' opening' closing' : Span) :
    Binding.Mirrors (Alike Eq) (index receiver info args span opening closing)
      (index receiver' info args' span' opening' closing') := by
  unfold index
  dsimp only
  rw [same.types_eq]
  split
  · exact (Binding.note_mirrors _ _).bind fun _ _ _ => .pure ⟨rfl,receivers,same⟩
  · exact .throw rfl

end Scope

theorem bindUnary_mirrors {op : UnaryOp} {x y : Expr σ} (alike : Alike Eq x y) (span span' : Span) :
    Binding.Mirrors (Alike Eq) (bindUnary op span x) (bindUnary op span' y) := by
  unfold bindUnary
  rw [alike.ty_eq]
  split
  · exact .pure ⟨rfl,rfl,alike⟩
  · exact .throw rfl

theorem bindBinary_mirrors {op : BinaryOp} {x y x' y' : Expr σ} (left : Alike Eq x x') (right : Alike Eq y y')
    (span span' : Span) : Binding.Mirrors (Alike Eq) (bindBinary op span x y) (bindBinary op span' x' y') := by
  unfold bindBinary
  rw [left.ty_eq,right.ty_eq]
  split
  · exact .pure ⟨rfl,rfl,left,right⟩
  · exact .throw rfl

-- The same is left to read, wherever it stands.
def ParseState.Same (s t : ParseState) : Prop := s.stream.map gist = t.stream.map gist

abbrev Parse.Mirrors (like : α → β → Prop) (p : Parse α) (q : Parse β) : Prop :=
  TypedFormula.Mirrors ParseState.Same like p q

namespace Parse

theorem current_mirrors : Parse.Mirrors (fun token token' => token.kind = token'.kind) current current :=
  fun _ _ states => ⟨Except.ok.inj (List.cons.inj states).1,states⟩

theorem tokensLeft_mirrors : Parse.Mirrors Eq tokensLeft tokensLeft := by
  intro s t states
  have lengths := congrArg List.length (List.cons.inj states).2
  rw [List.length_map,List.length_map] at lengths
  exact ⟨lengths,states⟩

theorem bump_mirrors : Parse.Mirrors Eq bump bump := by
  rintro ⟨current,left,notes⟩ ⟨current',left',notes'⟩ states
  obtain ⟨_,rest⟩ := List.cons.inj states
  cases left with
  | nil =>
    cases List.map_eq_nil_iff.mp rest.symm
    exact ⟨rfl,states⟩
  | cons reading left =>
    cases left' with
    | nil => cases rest
    | cons reading' left' =>
      obtain ⟨one,others⟩ := List.cons.inj rest
      cases reading with
      | ok token =>
        cases reading' with
        | ok token' => exact ⟨rfl,rest⟩
        | error => cases one
      | error fault =>
        cases reading' with
        | ok => cases one
        | error fault' => exact Except.error.inj one

theorem expect_mirrors (kind : TokenKind) : Parse.Mirrors (fun _ _ => True) (expect kind) (expect kind) := by
  refine current_mirrors.bind fun token token' kinds => ?_
  rw [kinds]
  split
  · exact bump_mirrors.bind fun _ _ _ => .pure trivial
  · exact .throw rfl

theorem bind_mirrors {p : Binding α} {q : Binding β} (bound : Binding.Mirrors like p q) :
    Parse.Mirrors like (bind p) (bind q) := by
  intro s t states
  unfold bind
  rcases (bound s.notes t.notes trivial).settled with ⟨a,_,b,_,ran,ranToo,alike,_⟩ | ⟨fault,_,other,_,ran,ranToo,causes⟩
  · rw [ran,ranToo]
    exact ⟨alike,states⟩
  · rw [ran,ranToo]
    exact causes

end Parse

namespace Parser

def InnerMirrors (inner : Inner σ) : Prop :=
  ∀ parse, inner = some parse → ∀ g, Parse.Mirrors (Alike Eq) (parse g) (parse g)

variable {scope : Scope σ} {limits : Limits} {inner : Inner σ} {target target' : Option (Expr σ)}

theorem nested_mirrors (inside : InnerMirrors inner) (span span' : Span) :
    Parse.Mirrors (fun parse parse' => ∀ g : Goal, Parse.Mirrors (Alike Eq) (parse g) (parse' g))
      (nested limits inner span) (nested limits inner span') := by
  cases found : inner with
  | none => exact .throw rfl
  | some parse => exact .pure (inside parse found)

theorem separated_mirrors {element element' : Parse (Expr σ)} (close : TokenKind)
    (below : Parse.Mirrors (Alike Eq) element element') (steps : Nat) :
    Parse.Mirrors (ListsAlike Eq) (separated element close steps) (separated element' close steps) := by
  induction steps with
  | zero => exact .pure trivial
  | succ steps ih =>
    refine below.bind fun first first' alike => Parse.current_mirrors.bind fun token token' kinds => ?_
    rw [kinds]
    split
    · exact Parse.bump_mirrors.bind fun _ _ _ => ih.bind fun _ _ others => .pure ⟨alike,others⟩
    · split
      · exact .pure ⟨alike,trivial⟩
      · exact .throw rfl

theorem arguments_mirrors (inside : InnerMirrors inner) (close : TokenKind) :
    Parse.Mirrors (fun found found' => ListsAlike Eq found.1 found'.1) (arguments limits inner close)
      (arguments limits inner close) := by
  refine Parse.current_mirrors.bind fun opening opening' _ => Parse.bump_mirrors.bind fun _ _ _ =>
    Parse.current_mirrors.bind fun first first' kinds => ?_
  have closed {args args' : List (Expr σ)} (all : ListsAlike Eq args args') :
      Parse.Mirrors (fun found found' => ListsAlike Eq found.1 found'.1)
        (do let closing ← Parse.current; Parse.bump; pure (args,closing.span))
        (do let closing ← Parse.current; Parse.bump; pure (args',closing.span)) :=
    Parse.current_mirrors.bind fun _ _ _ => Parse.bump_mirrors.bind fun _ _ _ => .pure all
  rw [kinds]
  split
  · have none : Parse.Mirrors (fun args args' : List (Expr σ) => ListsAlike Eq args args') (pure []) (pure []) :=
      .pure trivial
    exact none.bind fun _ _ => closed
  · refine Parse.tokensLeft_mirrors.bind ?_
    rintro left _ rfl
    refine (separated_mirrors close ?_ _).bind fun _ _ => closed
    exact (nested_mirrors inside _ _).bind fun _ _ mirrors => mirrors .expression

theorem indexer_mirrors (inside : InnerMirrors inner) (targets : Option.Rel (Alike Eq) target target') (span span' : Span) :
    Parse.Mirrors (Alike Eq) (indexer scope limits inner target span) (indexer scope limits inner target' span') := by
  refine (Parse.bind_mirrors (Scope.indexed_mirrors targets _ _)).bind ?_
  rintro ⟨receiver,info⟩ ⟨receiver',_⟩ ⟨receivers,rfl⟩
  exact Parse.current_mirrors.bind fun _ _ _ => (arguments_mirrors inside _).bind fun _ _ args =>
    Parse.bind_mirrors (Scope.index_mirrors info receivers args _ _ _ _ _ _)

-- What a name amounts to in front of a token of this kind, if its members and its callee are bound as given.
def resolved (scope : Scope σ) (limits : Limits) (inner : Inner σ) (kind : TokenKind) (members : Binding (Expr σ))
    (callee : Binding (Scope.Callee σ)) (span : Span) : Parse (Expr σ) :=
  match kind with
  | .leftParen => do
    let callee ← Parse.bind callee
    let (args,closing) ← arguments limits inner .rightParen
    Parse.bind (Scope.call callee args span closing)
  | .leftBracket => do
    let e ← Parse.bind members
    indexer scope limits inner (some e) span
  | _ => Parse.bind members

theorem named_eq (scope : Scope σ) (limits : Limits) (inner : Inner σ) (spelling : String) (span : Span)
    (target : Option (Expr σ)) : named scope limits inner spelling span target = (do
      Parse.bump
      let token ← Parse.current
      resolved scope limits inner token.kind (scope.members (.ofText spelling span.start) target)
        (scope.callee (.ofText spelling span.start) target) span) := rfl

-- Only in front of a parenthesis does the callee count.
theorem resolved_mirrors (inside : InnerMirrors inner) {kind : TokenKind} {members members' : Binding (Expr σ)}
    {callee callee' : Binding (Scope.Callee σ)} (bound : Binding.Mirrors (Alike Eq) members members')
    (callees : kind = .leftParen → Binding.Mirrors Scope.CalleesAlike callee callee') (span span' : Span) :
    Parse.Mirrors (Alike Eq) (resolved scope limits inner kind members callee span)
      (resolved scope limits inner kind members' callee' span') := by
  unfold resolved
  split
  · exact (Parse.bind_mirrors (callees rfl)).bind fun _ _ alike => (arguments_mirrors inside _).bind fun _ _ args =>
      Parse.bind_mirrors (Scope.call_mirrors alike args _ _ _ _)
  · exact (Parse.bind_mirrors bound).bind fun _ _ found => indexer_mirrors inside (.some found) _ _
  · exact Parse.bind_mirrors bound

theorem spelled_alike (spelling : String) (start start' : Nat) :
    SpelledAlike (DottedName.ofText spelling start).parts (DottedName.ofText spelling start').parts :=
  (DottedName.texts_ofText _ _).trans (DottedName.texts_ofText _ _).symm

theorem named_mirrors (inside : InnerMirrors inner) (spelling : String) (span span' : Span)
    (targets : Option.Rel (Alike Eq) target target') :
    Parse.Mirrors (Alike Eq) (named scope limits inner spelling span target)
      (named scope limits inner spelling span' target') := by
  rw [named_eq,named_eq]
  refine Parse.bump_mirrors.bind fun _ _ _ => Parse.current_mirrors.bind fun token token' kinds => ?_
  rw [kinds]
  exact resolved_mirrors inside (Scope.members_mirrors (spelled_alike _ _ _) targets)
    (fun _ => Scope.callee_mirrors (spelled_alike _ _ _) targets) _ _

theorem suffixes_mirrors (inside : InnerMirrors inner) (steps : Nat) {x y : Expr σ} (alike : Alike Eq x y) :
    Parse.Mirrors (Alike Eq) (suffixes scope limits inner steps x) (suffixes scope limits inner steps y) := by
  induction steps generalizing x y with
  | zero => exact .pure alike
  | succ steps ih =>
    refine Parse.current_mirrors.bind fun dot dot' kinds => ?_
    rw [kinds]
    split
    · refine Parse.bump_mirrors.bind fun _ _ _ => Parse.current_mirrors.bind fun token token' kinds => ?_
      rw [kinds]
      split
      · exact (named_mirrors inside _ _ _ (.some alike)).bind fun _ _ found => ih found
      · exact .throw rfl
    · exact .pure alike

theorem withSuffixes_mirrors (inside : InnerMirrors inner) {x y : Expr σ} (alike : Alike Eq x y) :
    Parse.Mirrors (Alike Eq) (withSuffixes scope limits inner x) (withSuffixes scope limits inner y) := by
  refine Parse.tokensLeft_mirrors.bind ?_
  rintro left _ rfl
  exact suffixes_mirrors inside _ alike

theorem unary_mirrors (inside : InnerMirrors inner) (op : UnaryOp) (span span' : Span) :
    Parse.Mirrors (Alike Eq) (unary limits inner op span) (unary limits inner op span') :=
  (nested_mirrors inside _ _).bind fun _ _ mirrors => Parse.bump_mirrors.bind fun _ _ _ =>
    (mirrors .primary).bind fun _ _ alike => Parse.bind_mirrors (bindUnary_mirrors alike _ _)

theorem group_mirrors (inside : InnerMirrors inner) (span span' : Span) :
    Parse.Mirrors (Alike Eq) (group scope limits inner span) (group scope limits inner span') :=
  (nested_mirrors inside _ _).bind fun _ _ mirrors => Parse.bump_mirrors.bind fun _ _ _ =>
    (mirrors .expression).bind fun _ _ alike => (Parse.expect_mirrors _).bind fun _ _ _ =>
      withSuffixes_mirrors inside (alike.withSpans _ _)

theorem primary_mirrors (inside : InnerMirrors inner) :
    Parse.Mirrors (Alike Eq) (primary scope limits inner) (primary scope limits inner) := by
  refine Parse.current_mirrors.bind fun token token' kinds => ?_
  rw [kinds]
  cases token'.kind.literal? with
  | some value => exact Parse.bump_mirrors.bind fun _ _ _ => .pure rfl
  | none =>
    dsimp only
    split
    · exact group_mirrors inside _ _
    · exact unary_mirrors inside _ _ _
    · exact unary_mirrors inside _ _ _
    · split
      · exact .throw rfl
      · exact indexer_mirrors inside .none _ _
    · exact named_mirrors inside _ _ _ .none
    · exact .throw rfl

theorem operators_mirrors {n : Nat} {tighter : (m : Nat) → m < n → Parse (Expr σ)}
    (below : ∀ m less, Parse.Mirrors (Alike Eq) (tighter m less) (tighter m less)) (steps : Nat) {x y : Expr σ}
    (alike : Alike Eq x y) :
    Parse.Mirrors (Alike Eq) (operators n tighter steps x) (operators n tighter steps y) := by
  induction steps generalizing x y with
  | zero => exact .pure alike
  | succ steps ih =>
    refine Parse.current_mirrors.bind fun token token' kinds => ?_
    rw [kinds]
    split
    · split
      · refine Parse.bump_mirrors.bind fun _ _ _ => (below _ _).bind fun _ _ right => ?_
        exact (Parse.bind_mirrors (bindBinary_mirrors alike right _ _)).bind fun _ _ both => ih both
      · exact .pure alike
    · exact .pure alike

theorem expression_concurs {operand : Parse (Expr σ)} (below : Parse.Mirrors (Alike Eq) operand operand) (n : Nat)
    {s t : ParseState} (first : Concur ParseState.Same (Alike Eq) (operand s) (operand t)) :
    Concur ParseState.Same (Alike Eq) (expression operand n s) (expression operand n t) := by
  induction n using Nat.strongRecOn generalizing s t with
  | ind n ih =>
    rw [expression]
    refine first.bind fun x y alike => Parse.tokensLeft_mirrors.bind ?_
    rintro left _ rfl
    exact operators_mirrors (fun m less s t states => ih m less (below s t states)) _ alike

theorem operand_mirrors (inside : InnerMirrors inner) :
    Parse.Mirrors (Alike Eq) (operand scope limits inner) (operand scope limits inner) :=
  (primary_mirrors inside).bind fun _ _ alike => withSuffixes_mirrors inside alike

theorem goal_mirrors (inside : InnerMirrors inner) (g : Goal) :
    Parse.Mirrors (Alike Eq) (goal scope limits inner g) (goal scope limits inner g) := by
  cases g with
  | primary => exact primary_mirrors inside
  | expression =>
    exact fun s t states => expression_concurs (operand_mirrors inside) _ (operand_mirrors inside s t states)

theorem within_mirrors (scope : Scope σ) (limits : Limits) (room : Nat) (g : Goal) :
    Parse.Mirrors (Alike Eq) (within scope limits room g) (within scope limits room g) := by
  induction room generalizing g with
  | zero => exact goal_mirrors (fun _ none => by cases none) g
  | succ room ih =>
    refine goal_mirrors ?_ g
    rintro _ ⟨⟩
    exact ih

theorem inner_mirrors (scope : Scope σ) (limits : Limits) (room : Nat) : InnerMirrors (innerOf scope limits room) := by
  cases room with
  | zero => exact fun _ none => by cases none
  | succ room =>
    rintro _ ⟨⟩
    exact within_mirrors scope limits room

end Parser
end TypedFormula
