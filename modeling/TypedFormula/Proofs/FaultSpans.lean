import TypedFormula.Proofs.ContextTypes
import TypedFormula.Proofs.Placement
import TypedFormula.Proofs.Snippets

namespace TypedFormula

open Text

-- What a computation gives, as long as its state satisfies the invariant, and that it fails at a span from
-- one boundary to another.
def Points {ρ α : Type} (boundary : Nat → Prop) (inv : ρ → Prop) (p : EStateM Fault ρ α) (good : α → Prop) : Prop :=
  ∀ s, inv s → match p s with
    | .ok a last => inv last ∧ good a
    | .error fault _ => fault.span.Aligned boundary

namespace Points

variable {ρ α β : Type} {boundary : Nat → Prop} {inv : ρ → Prop} {good : α → Prop} {better : β → Prop}

theorem pure {a : α} (is : good a) : Points boundary inv (pure a) good := fun _ holds => ⟨holds,is⟩

theorem throw {fault : Fault} (aligned : fault.span.Aligned boundary) : Points boundary inv (throw fault) good :=
  fun _ _ => aligned

theorem bind {p : EStateM Fault ρ α} {f : α → EStateM Fault ρ β} (first : Points boundary inv p good)
    (next : ∀ a, good a → Points boundary inv (f a) better) : Points boundary inv (p >>= f) better := by
  intro s holds
  have done := first s holds
  rw [bind_run]
  cases ran : p s with
  | ok a middle =>
    rw [ran] at done
    exact next a done.2 middle done.1
  | error fault last =>
    rw [ran] at done
    exact done

end Points

variable {σ : Type} {boundary : Nat → Prop}

def Expr.Aligned (boundary : Nat → Prop) (e : Expr σ) : Prop := ∀ node ∈ e.nodes, node.span.Aligned boundary

def Receiver.Aligned (boundary : Nat → Prop) (receiver : Receiver (Expr σ)) : Prop :=
  ∀ x, receiver = .value x → x.Aligned boundary

def Segments.Aligned (boundary : Nat → Prop) (segments : List Segment) : Prop :=
  ∀ segment ∈ segments, segment.span.Aligned boundary

namespace Expr

variable {e x : Expr σ}

theorem aligned_iff : e.Aligned boundary ↔ e.span.Aligned boundary ∧ ∀ child ∈ e.children, child.Aligned boundary :=
  forall_nodes_iff e

theorem Aligned.root (aligned : e.Aligned boundary) : e.span.Aligned boundary := (aligned_iff.mp aligned).1

theorem Aligned.withSpan (aligned : e.Aligned boundary) {span : Span} (wider : span.Aligned boundary) :
    (e.withSpan span).Aligned boundary := by
  rw [aligned_iff,span_withSpan,children_withSpan]
  exact ⟨wider,(aligned_iff.mp aligned).2⟩

theorem firstDeeperThan_aligned (aligned : e.Aligned boundary) {limit : Nat} {span : Span}
    (deep : e.firstDeeperThan limit = some span) : span.Aligned boundary := by
  rw [firstDeeperThan_eq] at deep
  obtain ⟨⟨level,node⟩,found,rfl⟩ := Option.map_eq_some_iff.mp deep
  refine aligned node ?_
  rw [nodes,preorder,preorderAt_nodes 0 1]
  exact List.mem_map_of_mem (List.mem_of_find?_eq_some found)

end Expr

theorem Receiver.Aligned.target {receiver : Receiver (Expr σ)} (aligned : receiver.Aligned boundary) :
    ∀ x ∈ receiver.target?.toList, x.Aligned boundary := by
  intro x present
  cases receiver with
  | context | type => cases present
  | value y =>
    cases List.mem_singleton.mp present
    exact aligned x rfl

theorem DottedName.Stands.aligned {a b : Nat} {name : DottedName} (stands : name.Stands boundary a b) :
    Segments.Aligned boundary name.parts := by
  intro segment present
  obtain ⟨starts,stops⟩ := stands.places segment present
  exact ⟨stands.row.ordered present,starts,stops⟩

-- Binding has no invariant: its notes can be anything.
abbrev Binding.Points {α : Type} (boundary : Nat → Prop) (binding : Binding α) (good : α → Prop) : Prop :=
  TypedFormula.Points boundary (fun _ => True) binding good

theorem Binding.note_points (n : Note) : Binding.Points boundary (.note n) fun _ => True := fun _ _ => ⟨trivial,trivial⟩

namespace Scope

variable {scope : Scope σ}

theorem contextInfo_points {span : Span} (aligned : span.Aligned boundary) :
    Binding.Points boundary (scope.contextInfo span) fun _ => True := by
  unfold contextInfo
  split
  · exact .throw aligned
  · split
    · exact .pure trivial
    · exact .throw aligned

theorem typeInfo_points {ty : Ty} {span : Span} (aligned : span.Aligned boundary) :
    Binding.Points boundary (scope.typeInfo ty span) fun _ => True := by
  unfold typeInfo
  split
  · exact .pure trivial
  · exact .throw aligned

theorem instanceMember_points {x : Expr σ} {segment : Segment} (target : x.Aligned boundary)
    (part : segment.span.Aligned boundary) :
    Binding.Points boundary (scope.instanceMember x segment) (Expr.Aligned boundary) := by
  unfold instanceMember
  split
  · exact .throw part
  · refine (Binding.note_points _).bind fun _ _ => .pure ?_
    exact Expr.aligned_iff.mpr ⟨target.root.union part,List.forall_mem_singleton.mpr target⟩

theorem instanceMembers_points {x : Expr σ} {segments : List Segment} (target : x.Aligned boundary)
    (parts : Segments.Aligned boundary segments) :
    Binding.Points boundary (scope.instanceMembers x segments) (Expr.Aligned boundary) := by
  induction segments generalizing x with
  | nil => exact .pure target
  | cons segment rest ih =>
    obtain ⟨part,others⟩ := List.forall_mem_cons.mp parts
    exact (instanceMember_points target part).bind fun y found => ih found others

theorem staticMember_points {info : TypeInfo σ} {type : DottedName} {segment : Segment}
    (part : segment.span.Aligned boundary) (starts : boundary type.first.span.start)
    (ordered : type.first.span.start ≤ segment.span.stop) :
    Binding.Points boundary (staticMember info type segment) (Expr.Aligned boundary) := by
  unfold staticMember
  split
  · exact .throw part
  · refine (Binding.note_points _).bind fun _ _ => .pure ?_
    exact Expr.aligned_iff.mpr ⟨⟨ordered,starts,part.stops⟩,List.forall_mem_nil _⟩

theorem unresolved_aligned {first : Segment} (part : first.span.Aligned boundary) (alone : Bool) :
    (scope.unresolved first alone).span.Aligned boundary := by
  unfold unresolved
  split
  · exact part
  · split <;> exact part

theorem root_points {name : DottedName} {a b : Nat} (stands : name.Stands boundary a b) :
    Binding.Points boundary (scope.root name) fun (e,rest) =>
      e.Aligned boundary ∧ Segments.Aligned boundary rest := by
  obtain ⟨first,others⟩ := List.forall_mem_cons.mp stands.aligned
  unfold root
  split
  · refine (Binding.note_points _).bind fun _ _ => .pure ⟨?_,others⟩
    exact Expr.aligned_iff.mpr ⟨first,List.forall_mem_nil _⟩
  · split
    · rename_i info type segment rest longest
      obtain ⟨same,split⟩ := List.cons.inj (Expr.longestType_split longest)
      obtain ⟨_,_,row⟩ := stands.row
      rw [split] at others row
      obtain ⟨n,front,behind,ordered,_⟩ := Row.append_iff.mp row
      obtain ⟨part,left⟩ := List.forall_mem_cons.mp (List.forall_mem_append.mp others).2
      have reaches := front.le
      have filled := first.ordered
      rw [same] at first filled reaches
      exact (staticMember_points part first.starts (by omega)).bind fun e found => .pure ⟨found,left⟩
    · exact .throw (unresolved_aligned first _)

theorem members_points {name : DottedName} {a b : Nat} (stands : name.Stands boundary a b) {target : Option (Expr σ)}
    (before : ∀ x, target = some x → x.Aligned boundary) :
    Binding.Points boundary (scope.members name target) (Expr.Aligned boundary) := by
  unfold members
  split
  · rename_i x
    exact instanceMembers_points (before x rfl) stands.aligned
  · exact (root_points stands).bind fun (e,rest) found => instanceMembers_points found.1 found.2

structure Callee.Aligned (boundary : Nat → Prop) (callee : Callee σ) : Prop where
  receiver : callee.receiver.Aligned boundary
  method : callee.method.span.Aligned boundary

theorem valueCallee_points {x : Expr σ} {method : Segment} (target : x.Aligned boundary)
    (part : method.span.Aligned boundary) :
    Binding.Points boundary (scope.valueCallee x method) (Callee.Aligned boundary) := by
  refine (typeInfo_points target.root).bind fun info _ => .pure ⟨?_,part⟩
  rintro _ ⟨⟩
  exact target

theorem callee_points {name : DottedName} {a b : Nat} (stands : name.Stands boundary a b) {target : Option (Expr σ)}
    (before : ∀ x, target = some x → x.Aligned boundary) :
    Binding.Points boundary (scope.callee name target) (Callee.Aligned boundary) := by
  have first : name.first.span.Aligned boundary := stands.aligned _ List.mem_cons_self
  unfold callee
  cases split : name.splitLast? with
  | none =>
    cases target with
    | some x => exact valueCallee_points (before x rfl) first
    | none => exact (contextInfo_points first).bind fun info _ => .pure ⟨fun x none => (by cases none),first⟩
  | some cut =>
    obtain ⟨path,method⟩ := cut
    obtain ⟨m,inner,_⟩ := stands.splitLast split
    have part : method.span.Aligned boundary := by
      refine stands.aligned method ?_
      rw [DottedName.parts_of_splitLast split]
      exact List.mem_append_right _ (List.mem_singleton_self _)
    have walked : Binding.Points boundary (do scope.valueCallee (← scope.members path target) method)
        (Callee.Aligned boundary) :=
      (members_points inner before).bind fun e found => valueCallee_points found part
    cases target with
    | some x => exact walked
    | none =>
      dsimp only
      split
      · exact .pure ⟨fun x none => (by cases none),part⟩
      · exact walked

theorem startOf_aligned {receiver : Receiver (Expr σ)} {span : Span} (aligned : receiver.Aligned boundary)
    (own : span.Aligned boundary) : (startOf receiver span).Aligned boundary := by
  cases receiver with
  | context | type => exact own
  | value x => exact (aligned x rfl).root

theorem call_points {callee : Callee σ} {args : List (Expr σ)} {span closing : Span} (of : callee.Aligned boundary)
    (below : ∀ arg ∈ args, arg.Aligned boundary) (own : span.Aligned boundary) (closes : closing.Aligned boundary) :
    Binding.Points boundary (call callee args span closing) (Expr.Aligned boundary) := by
  unfold call
  dsimp only
  split
  · refine (Binding.note_points _).bind fun _ _ => .pure (Expr.aligned_iff.mpr ⟨?_,?_⟩)
    · exact (startOf_aligned of.receiver own).union closes
    · exact List.forall_mem_append.mpr ⟨of.receiver.target,below⟩
  · exact .throw of.method

theorem indexed_points {target : Option (Expr σ)} {span : Span} (before : ∀ x, target = some x → x.Aligned boundary)
    (own : span.Aligned boundary) : Binding.Points boundary (scope.indexed target span) fun (receiver,_) =>
      receiver.Aligned boundary := by
  unfold indexed
  cases target with
  | some x =>
    refine (typeInfo_points (before x rfl).root).bind fun info _ => .pure ?_
    rintro _ ⟨⟩
    exact before x rfl
  | none => exact (contextInfo_points own).bind fun info _ => .pure fun _ none => by cases none

theorem index_points {receiver : Receiver (Expr σ)} {info : TypeInfo σ} {args : List (Expr σ)}
    {span opening closing : Span} (of : receiver.Aligned boundary) (below : ∀ arg ∈ args, arg.Aligned boundary)
    (own : span.Aligned boundary) (opens : opening.Aligned boundary) (closes : closing.Aligned boundary) :
    Binding.Points boundary (index receiver info args span opening closing) (Expr.Aligned boundary) := by
  unfold index
  dsimp only
  split
  · refine (Binding.note_points _).bind fun _ _ => .pure (Expr.aligned_iff.mpr ⟨?_,?_⟩)
    · exact (startOf_aligned of own).union closes
    · exact List.forall_mem_append.mpr ⟨of.target,below⟩
  · exact .throw (opens.union closes)

end Scope

theorem bindUnary_points {op : UnaryOp} {span : Span} {operand : Expr σ} (own : span.Aligned boundary)
    (below : operand.Aligned boundary) :
    Binding.Points boundary (bindUnary op span operand) (Expr.Aligned boundary) := by
  unfold bindUnary
  split
  · exact .pure (Expr.aligned_iff.mpr ⟨own.union below.root,List.forall_mem_singleton.mpr below⟩)
  · exact .throw own

theorem bindBinary_points {op : BinaryOp} {span : Span} {left right : Expr σ} (own : span.Aligned boundary)
    (first : left.Aligned boundary) (second : right.Aligned boundary) :
    Binding.Points boundary (bindBinary op span left right) (Expr.Aligned boundary) := by
  unfold bindBinary
  split
  · refine .pure (Expr.aligned_iff.mpr ⟨first.root.union second.root,?_⟩)
    exact List.forall_mem_cons.mpr ⟨first,List.forall_mem_singleton.mpr second⟩
  · exact .throw own

-- A token goes from one boundary to another, and the parts of a name do so inside it.
structure Token.Placed (boundary : Nat → Prop) (token : Token) : Prop where
  aligned : token.span.Aligned boundary
  parts : ∀ spelling, token.kind = .name spelling →
    ∃ a b, (DottedName.ofText spelling token.span.start).Stands boundary a b

theorem Token.LiesIn.placed {text : List Char} {token : Token} (lies : token.LiesIn text) :
    token.Placed (IsBoundary text) := by
  refine ⟨lies.aligned,fun spelling is => ?_⟩
  exact ⟨_,_,(lies.stands (by rw [is]; exact TokenKind.noConfusion)).parts is⟩

structure ParseState.Placed (boundary : Nat → Prop) (s : ParseState) : Prop where
  current : s.current.Placed boundary
  tokens : ∀ token, .ok token ∈ s.rest → token.Placed boundary
  faults : ∀ fault, .error fault ∈ s.rest → fault.span.Aligned boundary

abbrev Parse.Points {α : Type} (boundary : Nat → Prop) (p : Parse α) (good : α → Prop) : Prop :=
  TypedFormula.Points boundary (ParseState.Placed boundary) p good

namespace Parse

theorem current_points : Parse.Points boundary current (Token.Placed boundary) := fun _ rests => ⟨rests,rests.current⟩

theorem tokensLeft_points : Parse.Points boundary tokensLeft fun _ => True := fun _ rests => ⟨rests,trivial⟩

theorem bump_points : Parse.Points boundary bump fun _ => True := by
  intro s rests
  obtain ⟨current,left,notes⟩ := s
  cases left with
  | nil => exact ⟨rests,trivial⟩
  | cons reading left =>
    cases reading with
    | error fault => exact rests.faults fault List.mem_cons_self
    | ok token =>
      refine ⟨⟨rests.tokens token List.mem_cons_self,?_,?_⟩,trivial⟩
      · exact fun other present => rests.tokens other (List.mem_cons_of_mem _ present)
      · exact fun fault present => rests.faults fault (List.mem_cons_of_mem _ present)

theorem expect_points (kind : TokenKind) : Parse.Points boundary (expect kind) (Span.Aligned boundary) := by
  refine current_points.bind fun token rests => ?_
  split
  · exact bump_points.bind fun _ _ => .pure rests.aligned
  · exact .throw rests.aligned

theorem bind_points {α : Type} {binding : Binding α} {good : α → Prop} (bound : Binding.Points boundary binding good) :
    Parse.Points boundary (bind binding) good := by
  intro s rests
  have done := bound s.notes trivial
  unfold bind
  cases ran : binding s.notes with
  | ok a notes =>
    rw [ran] at done
    exact ⟨⟨rests.current,rests.tokens,rests.faults⟩,done.2⟩
  | error fault notes =>
    rw [ran] at done
    exact done

end Parse

namespace Parser

def InnerPoints (boundary : Nat → Prop) (inner : Inner σ) : Prop :=
  ∀ parse, inner = some parse → ∀ g, Parse.Points boundary (parse g) (Expr.Aligned boundary)

variable {scope : Scope σ} {limits : Limits} {inner : Inner σ}

theorem nested_points (inside : InnerPoints boundary inner) {span : Span} (opens : span.Aligned boundary) :
    Parse.Points boundary (nested limits inner span) fun parse =>
      ∀ g, Parse.Points boundary (parse g) (Expr.Aligned boundary) := by
  cases found : inner with
  | none => exact .throw opens
  | some parse => exact .pure (inside parse found)

theorem separated_points {element : Parse (Expr σ)} (close : TokenKind)
    (below : Parse.Points boundary element (Expr.Aligned boundary)) (steps : Nat) :
    Parse.Points boundary (separated element close steps) fun args => ∀ arg ∈ args, arg.Aligned boundary := by
  induction steps with
  | zero => exact .pure (List.forall_mem_nil _)
  | succ steps ih =>
    refine below.bind fun first aligned => Parse.current_points.bind fun token rests => ?_
    split
    · refine Parse.bump_points.bind fun _ _ => ih.bind fun others all => .pure ?_
      exact List.forall_mem_cons.mpr ⟨aligned,all⟩
    · split
      · exact .pure (List.forall_mem_singleton.mpr aligned)
      · exact .throw rests.aligned

theorem arguments_points (inside : InnerPoints boundary inner) (close : TokenKind) :
    Parse.Points boundary (arguments limits inner close) fun (args,closing) =>
      (∀ arg ∈ args, arg.Aligned boundary) ∧ closing.Aligned boundary := by
  refine Parse.current_points.bind fun opening opens => Parse.bump_points.bind fun _ _ =>
    Parse.current_points.bind fun first _ => ?_
  have closed {args : List (Expr σ)} (all : ∀ arg ∈ args, arg.Aligned boundary) :
      Parse.Points boundary (do let closing ← Parse.current; Parse.bump; pure (args,closing.span))
        fun (args,closing) => (∀ arg ∈ args, arg.Aligned boundary) ∧ closing.Aligned boundary :=
    Parse.current_points.bind fun closing closes => Parse.bump_points.bind fun _ _ => .pure ⟨all,closes.aligned⟩
  split
  · exact (Points.pure (List.forall_mem_nil _)).bind fun _ => closed
  · refine Parse.tokensLeft_points.bind fun left _ => (separated_points close ?_ _).bind fun _ => closed
    exact (nested_points inside opens.aligned).bind fun parse points => points .expression

theorem indexer_points (inside : InnerPoints boundary inner) {target : Option (Expr σ)} {span : Span}
    (before : ∀ x, target = some x → x.Aligned boundary) (own : span.Aligned boundary) :
    Parse.Points boundary (indexer scope limits inner target span) (Expr.Aligned boundary) := by
  refine (Parse.bind_points (Scope.indexed_points before own)).bind fun (receiver,info) of =>
    Parse.current_points.bind fun opening opens => (arguments_points inside _).bind fun (args,closing) given => ?_
  exact Parse.bind_points (Scope.index_points of given.1 own opens.aligned given.2)

theorem call_points (inside : InnerPoints boundary inner) {name : DottedName} {a b : Nat}
    (stands : name.Stands boundary a b) {target : Option (Expr σ)} {span : Span}
    (before : ∀ x, target = some x → x.Aligned boundary) (own : span.Aligned boundary) :
    Parse.Points boundary (call scope limits inner name span target) (Expr.Aligned boundary) :=
  (Parse.bind_points (Scope.callee_points stands before)).bind fun _ of =>
    (arguments_points inside _).bind fun (_,_) given => Parse.bind_points (Scope.call_points of given.1 own given.2)

theorem named_points (inside : InnerPoints boundary inner) {spelling : String} {span : Span} {a b : Nat}
    (stands : (DottedName.ofText spelling span.start).Stands boundary a b) {target : Option (Expr σ)}
    (before : ∀ x, target = some x → x.Aligned boundary) (own : span.Aligned boundary) :
    Parse.Points boundary (named scope limits inner spelling span target) (Expr.Aligned boundary) := by
  refine Parse.bump_points.bind fun _ _ => Parse.current_points.bind fun token _ => ?_
  split
  · exact call_points inside stands before own
  · refine (Parse.bind_points (Scope.members_points stands before)).bind fun e aligned => ?_
    refine indexer_points inside ?_ own
    rintro _ ⟨⟩
    exact aligned
  · exact Parse.bind_points (Scope.members_points stands before)

theorem suffixes_points (inside : InnerPoints boundary inner) (steps : Nat) {x : Expr σ} (aligned : x.Aligned boundary) :
    Parse.Points boundary (suffixes scope limits inner steps x) (Expr.Aligned boundary) := by
  induction steps generalizing x with
  | zero => exact .pure aligned
  | succ steps ih =>
    refine Parse.current_points.bind fun dot _ => ?_
    split
    · refine Parse.bump_points.bind fun _ _ => Parse.current_points.bind fun token rests => ?_
      split
      · rename_i name is
        obtain ⟨a,b,stands⟩ := rests.parts name is
        refine (named_points inside stands ?_ rests.aligned).bind fun y found => ih found
        rintro _ ⟨⟩
        exact aligned
      · exact .throw rests.aligned
    · exact .pure aligned

theorem withSuffixes_points (inside : InnerPoints boundary inner) {x : Expr σ} (aligned : x.Aligned boundary) :
    Parse.Points boundary (withSuffixes scope limits inner x) (Expr.Aligned boundary) :=
  Parse.tokensLeft_points.bind fun _ _ => suffixes_points inside _ aligned

theorem unary_points (inside : InnerPoints boundary inner) {op : UnaryOp} {span : Span} (own : span.Aligned boundary) :
    Parse.Points boundary (unary limits inner op span) (Expr.Aligned boundary) :=
  (nested_points inside own).bind fun _ points => Parse.bump_points.bind fun _ _ =>
    (points .primary).bind fun _ below => Parse.bind_points (bindUnary_points own below)

theorem group_points (inside : InnerPoints boundary inner) {span : Span} (own : span.Aligned boundary) :
    Parse.Points boundary (group scope limits inner span) (Expr.Aligned boundary) :=
  (nested_points inside own).bind fun _ points => Parse.bump_points.bind fun _ _ =>
    (points .expression).bind fun _ aligned => (Parse.expect_points _).bind fun _ closes =>
      withSuffixes_points inside (aligned.withSpan (own.union closes))

theorem primary_points (inside : InnerPoints boundary inner) :
    Parse.Points boundary (primary scope limits inner) (Expr.Aligned boundary) := by
  refine Parse.current_points.bind fun token rests => ?_
  cases token.kind.literal? with
  | some value =>
    refine Parse.bump_points.bind fun _ _ => .pure ?_
    exact Expr.aligned_iff.mpr ⟨rests.aligned,List.forall_mem_nil _⟩
  | none =>
    dsimp only
    split
    · exact group_points inside rests.aligned
    · exact unary_points inside rests.aligned
    · exact unary_points inside rests.aligned
    · split
      · exact .throw rests.aligned
      · exact indexer_points inside (fun _ none => by cases none) rests.aligned
    · rename_i name is
      obtain ⟨a,b,stands⟩ := rests.parts name is
      exact named_points inside stands (fun _ none => by cases none) rests.aligned
    · exact .throw rests.aligned

theorem operators_points {n : Nat} {tighter : (m : Nat) → m < n → Parse (Expr σ)}
    (below : ∀ m less, Parse.Points boundary (tighter m less) (Expr.Aligned boundary)) (steps : Nat) {left : Expr σ}
    (aligned : left.Aligned boundary) :
    Parse.Points boundary (operators n tighter steps left) (Expr.Aligned boundary) := by
  induction steps generalizing left with
  | zero => exact .pure aligned
  | succ steps ih =>
    refine Parse.current_points.bind fun token rests => ?_
    split
    · split
      · refine Parse.bump_points.bind fun _ _ => (below _ _).bind fun right other => ?_
        exact (Parse.bind_points (bindBinary_points rests.aligned aligned other)).bind fun _ both => ih both
      · exact .pure aligned
    · exact .pure aligned

theorem expression_points {operand : Parse (Expr σ)} (below : Parse.Points boundary operand (Expr.Aligned boundary))
    (n : Nat) : Parse.Points boundary (expression operand n) (Expr.Aligned boundary) := by
  induction n using Nat.strongRecOn with
  | ind n ih =>
    rw [expression]
    exact below.bind fun _ aligned => Parse.tokensLeft_points.bind fun _ _ => operators_points ih _ aligned

theorem goal_points (inside : InnerPoints boundary inner) (g : Goal) :
    Parse.Points boundary (goal scope limits inner g) (Expr.Aligned boundary) := by
  cases g with
  | primary => exact primary_points inside
  | expression =>
    exact expression_points ((primary_points inside).bind fun _ aligned => withSuffixes_points inside aligned) _

theorem within_points (room : Nat) (g : Goal) :
    Parse.Points boundary (within scope limits room g) (Expr.Aligned boundary) := by
  induction room generalizing g with
  | zero => exact goal_points (fun _ none => by cases none) g
  | succ room ih =>
    refine goal_points ?_ g
    rintro _ ⟨⟩
    exact ih

theorem formula_points (scope : Scope σ) (limits : Limits) (text : String) :
    Parse.Points boundary (formula scope limits text) (Expr.Aligned boundary) := by
  refine Parse.bump_points.bind fun _ _ => (within_points _ _).bind fun e aligned =>
    Parse.current_points.bind fun token rests => ?_
  dsimp only
  by_cases behind : token.kind ≠ .ending
  · rw [if_pos behind]
    exact fun _ _ => rests.aligned
  · rw [if_neg behind]
    cases deep : e.firstDeeperThan limits.maxHeight with
    | some span => exact fun _ _ => Expr.firstDeeperThan_aligned aligned deep
    | none => exact (Parse.bind_points (Binding.note_points _)).bind fun _ _ => .pure aligned

-- What is read of a formula lies in it, so whatever is parsed of one that is short enough does.
theorem short_points (scope : Scope σ) {limits : Limits} {text : String}
    (short : byteLength text.toList ≤ limits.maxLength) :
    (∀ e, parse scope limits text = .ok e → e.Aligned (IsBoundary text.toList)) ∧
    ∀ fault, parse scope limits text = .error fault → fault.span.Aligned (IsBoundary text.toList) := by
  have zero : IsBoundary text.toList 0 := ⟨_,splitsAt_zero _⟩
  have rests : ParseState.Placed (IsBoundary text.toList) ⟨.initial,Lexer.readings text,[]⟩ := by
    refine ⟨⟨⟨Nat.le_refl _,zero,zero⟩,fun _ none => by cases none⟩,?_,?_⟩
    · intro token present
      exact (Lexer.readings_lie text _ present).placed
    · intro fault present
      exact Span.Fills.aligned (Lexer.readings_lie text _ present)
  have done := formula_points scope limits text _ rests
  rw [parse,run_short short]
  cases ran : formula scope limits text ⟨.initial,Lexer.readings text,[]⟩ with
  | ok e last =>
    rw [ran] at done
    refine ⟨?_,fun fault none => by cases none⟩
    rintro _ ⟨⟩
    exact done.2
  | error fault last =>
    rw [ran] at done
    refine ⟨fun e none => (by cases none),?_⟩
    rintro _ ⟨⟩
    exact done

theorem parse_points (scope : Scope σ) (limits : Limits) (text : String) :
    (∀ e, parse scope limits text = .ok e → e.Aligned (IsBoundary text.toList)) ∧
    ∀ fault, parse scope limits text = .error fault → fault.cause.kind ≠ .formulaTooLong →
      fault.span.Aligned (IsBoundary text.toList) := by
  rcases Nat.lt_or_ge limits.maxLength (byteLength text.toList) with long | short
  · rw [parse,run_long long]
    refine ⟨fun e none => (by cases none),?_⟩
    rintro _ ⟨⟩ other
    exact absurd rfl other
  · obtain ⟨trees,faults⟩ := short_points scope short
    exact ⟨trees,fun fault failed _ => faults fault failed⟩

end Parser

namespace CompiledFormula

variable {f : CompiledFormula σ} {state last : σ} {fault : Fault}

theorem evaluate_points (aligned : f.expr.Aligned boundary) (failed : f.evaluate state = .error fault last) :
    fault.span.Aligned boundary := by
  obtain ⟨done,step,stops⟩ := stops_iff.mp failed
  obtain ⟨node,present,place,_⟩ := stops_blamed stops
  rw [place]
  exact aligned node present

theorem evaluateWith_points (aligned : f.expr.Aligned boundary) {o : Object}
    (failed : f.evaluateWith o state = .error fault last) : fault.span.Aligned boundary := by
  have retargeted : (CompiledFormula.mk f.expr (some o)).evaluate state = .error fault last →
      fault.span.Aligned boundary := evaluate_points aligned
  cases given : f.context with
  | none =>
    unfold evaluateWith at failed
    rw [given] at failed
    exact retargeted failed
  | some bound =>
    by_cases same : o.typeName = bound.typeName
    · rw [evaluateWith_same given same] at failed
      exact retargeted failed
    · rw [evaluateWith_foreign given same] at failed
      cases failed
      exact aligned.root

end CompiledFormula

-- What a diagnostic marks can be selected in a formula: some characters from its start on, or nothing at the
-- end of the formula.
structure Diagnostic.Selects (d : Diagnostic) (formula : String) : Prop where
  ordered : d.span.start ≤ d.span.stop
  inside : d.span.stop ≤ byteLength formula.toList
  starts : IsBoundary formula.toList d.span.start
  stops : IsBoundary formula.toList d.span.stop
  marked : (d.snippet formula ≠ "" ∧
      ∃ rest, SplitsAt formula.toList d.span.start ((d.snippet formula).toList ++ rest)) ∨
    d.span = ⟨byteLength formula.toList,byteLength formula.toList⟩

theorem Diagnostic.selects_of_aligned {d : Diagnostic} {formula : String}
    (aligned : d.span.Aligned (IsBoundary formula.toList)) : d.Selects formula := by
  obtain ⟨ordered,⟨rest,splits⟩,⟨behind,ends⟩⟩ := aligned
  have inside := Nat.le.intro ends.length
  refine ⟨ordered,inside,⟨rest,splits⟩,⟨behind,ends⟩,?_⟩
  have snippet : (d.snippet formula).toList = coverBytes d.length rest := by
    have place : d.snippetStart formula.toList = d.span.start := Nat.min_eq_left (Nat.le_trans ordered inside)
    rw [snippet,String.toList_ofList,snippetChars_eq (by rw [place]; exact splits)]
  cases rest with
  | nil =>
    have atEnd : d.span.start = byteLength formula.toList := splits.length
    have reaches : d.span.stop = byteLength formula.toList := by omega
    refine .inr ?_
    rw [← atEnd]
    exact congrArg (Span.mk d.span.start) (reaches.trans atEnd.symm)
  | cons c cs =>
    obtain ⟨left,whole⟩ := coverBytes_prefix d.length (c :: cs)
    refine .inl ⟨?_,left,by rw [snippet,whole]; exact splits⟩
    obtain ⟨n,positive⟩ : ∃ n, d.length = n + 1 := ⟨d.length - 1,by unfold Diagnostic.length; omega⟩
    intro empty
    rw [empty,positive] at snippet
    cases snippet

namespace Engine

-- Whatever reading, binding or evaluating a formula fails with points at something that can be selected in
-- the formula, unless the formula is too long to be read.
theorem faults_selectable (registry : Registry σ) (context : Option Object) (limits : Limits) (formula : String) :
    (∀ fault, (parse registry context limits formula).1 = .error fault →
      fault.cause.kind ≠ .formulaTooLong → fault.diagnostic.Selects formula) ∧
    (∀ fault, (compile registry context limits formula).1 = .error fault →
      fault.cause.kind ≠ .formulaTooLong → fault.diagnostic.Selects formula) ∧
    ∀ f, (compile registry context limits formula).1 = .ok f → ∀ state fault last,
      (f.evaluate state = .error fault last → fault.diagnostic.Selects formula) ∧
      ∀ o, f.evaluateWith o state = .error fault last → fault.diagnostic.Selects formula := by
  obtain ⟨trees,faults⟩ := Parser.parse_points (scope registry context) limits formula
  have read : ∀ fault, (parse registry context limits formula).1 = .error fault →
      fault.cause.kind ≠ .formulaTooLong → fault.diagnostic.Selects formula :=
    fun fault failed other => Diagnostic.selects_of_aligned (faults fault failed other)
  refine ⟨read,?_,?_⟩
  · intro fault failed
    refine read fault ?_
    unfold compile at failed
    split at failed
    · cases failed
    · rename_i other notes parsed
      cases failed
      rw [parsed]
  · intro f compiled state fault last
    obtain ⟨parsed,_⟩ := Soundness.compile_succeeds (Prod.ext compiled rfl)
    have aligned := trees f.expr parsed
    exact ⟨fun failed => Diagnostic.selects_of_aligned (CompiledFormula.evaluate_points aligned failed),
      fun o failed => Diagnostic.selects_of_aligned (CompiledFormula.evaluateWith_points aligned failed)⟩

theorem evaluate_fails {registry : Registry σ} {context : Option Object} {text : String} {state : σ} {fault : Fault}
    (accepted : (compile registry context {} text).1.isOk = true)
    (failed : faultOf? (getValue registry context text state).1 = some fault) :
    ∃ f last, (compile registry context {} text).1 = .ok f ∧ f.evaluate state = .error fault last := by
  unfold getValue at failed
  cases compiled : compile registry context {} text with
  | mk outcome notes =>
    rw [compiled] at accepted failed
    obtain ⟨f,rfl⟩ := exists_ok accepted
    dsimp only at failed
    split at failed
    · cases failed
    · rename_i other last ran
      cases failed
      exact ⟨f,last,rfl,ran⟩

theorem faults_selected :
    (∃ fault, (parse (Builtins.registry : Registry Unit) none {} "1 + Größe.Höhe").1 = .error fault ∧
      fault.span = ⟨4,11⟩ ∧ fault.diagnostic.Selects "1 + Größe.Höhe") ∧
    (∃ fault, (compile (Builtins.registry : Registry Unit) none {} "\"é\" + ").1 = .error fault ∧
      fault.span = ⟨7,7⟩ ∧ fault.diagnostic.Selects "\"é\" + ") ∧
    ∃ (f : CompiledFormula Unit) (fault : Fault) (last : Unit),
      (compile Builtins.registry none {} "\"é\".Length + 7 / 0").1 = .ok f ∧ f.evaluate () = .error fault last ∧
      fault.span = ⟨14,19⟩ ∧ fault.diagnostic.Selects "\"é\".Length + 7 / 0" := by
  have unknown : faultOf? (parse (Builtins.registry : Registry Unit) none {} "1 + Größe.Höhe").1 =
      some ⟨.unknownType "Größe",⟨4,11⟩⟩ := by decide +kernel
  have short : faultOf? (compile (Builtins.registry : Registry Unit) none {} "\"é\" + ").1 =
      some ⟨.expectedOperand .ending,⟨7,7⟩⟩ := by decide +kernel
  have divided : faultOf? (getValue (Builtins.registry : Registry Unit) none "\"é\".Length + 7 / 0" ()).1 =
      some ⟨.divisionByZero,⟨14,19⟩⟩ := by decide +kernel
  obtain ⟨f,last,compiled,failed⟩ := evaluate_fails (by decide +kernel) divided
  refine ⟨⟨_,faultOf_eq_some unknown,rfl,?_⟩,⟨_,faultOf_eq_some short,rfl,?_⟩,f,_,last,compiled,failed,rfl,?_⟩
  · exact (faults_selectable _ _ _ _).1 _ (faultOf_eq_some unknown) (by decide)
  · exact (faults_selectable _ _ _ _).2.1 _ (faultOf_eq_some short) (by decide)
  · exact ((faults_selectable _ _ _ _).2.2 f compiled () _ last).1 failed

end Engine
end TypedFormula
