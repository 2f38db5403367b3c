import TypedFormula.Proofs.DottedNames
import TypedFormula.Proofs.LiteralText
import TypedFormula.Proofs.Alike
import TypedFormula.Proofs.Readings

namespace TypedFormula

def UnaryOp.kind : UnaryOp → TokenKind
  | .negate => .minus
  | .not => .not

def BinaryOp.kind : BinaryOp → TokenKind
  | .logicalOr => .logicalOr
  | .logicalAnd => .logicalAnd
  | .bitOr => .bitOr
  | .bitXor => .bitXor
  | .bitAnd => .bitAnd
  | .equal => .equal
  | .notEqual => .notEqual
  | .less => .less
  | .lessEqual => .lessEqual
  | .greater => .greater
  | .greaterEqual => .greaterEqual
  | .shiftLeft => .shiftLeft
  | .shiftRight => .shiftRight
  | .add => .plus
  | .subtract => .minus
  | .multiply => .star
  | .divide => .slash

theorem UnaryOp.unaryOp_kind (op : UnaryOp) : op.kind.unaryOp? = some op := by
  cases op <;> rfl

theorem BinaryOp.binaryOp_kind (op : BinaryOp) : op.kind.binaryOp? = some op := by
  cases op <;> rfl

variable {σ : Type}

namespace Expr

-- The dotted name that a run of members is printed as; nothing for other trees.
def path : Expr σ → List String
  | .member .context m _ => [m.name]
  | .member (.type name) m _ => [name,m.name]
  | .member (.value target) m _ => path target ++ [m.name]
  | _ => []

end Expr

def Receiver.names : Receiver (Expr σ) → List String
  | .context => []
  | .type name => [name]
  | .value target => target.path

namespace Expr

theorem path_member (receiver : Receiver (Expr σ)) (m : Member σ) (span : Span) :
    (Expr.member receiver m span).path = receiver.names ++ [m.name] := by
  cases receiver <;> rfl

-- A receiver's tokens that are no part of a name, with the dot behind them.
def pointAt (target : Expr σ) (kinds : List TokenKind) : List TokenKind :=
  if target.needsParens then .leftParen :: (kinds ++ [.rightParen,.dot]) else kinds ++ [.dot]

mutual

def kinds : Expr σ → List TokenKind
  | .literal value _ => [.ofValue value.reread]
  | .unary op operand _ _ => op.kind :: kinds operand
  | .binary op left right _ _ => .leftParen :: (kinds left ++ op.kind :: (kinds right ++ [.rightParen]))
  | .member receiver m _ => leadKinds receiver ++ [.name (dotted (receiver.names ++ [m.name]))]
  | .call receiver m args _ =>
    leadKinds receiver ++ .name (dotted (receiver.names ++ [m.name])) ::
      .leftParen :: (argKinds args ++ [.rightParen])
  | .index receiver _ args _ =>
    targetKinds receiver ++ .leftBracket :: (argKinds args ++ [.rightBracket])

-- The tokens of a receiver in front of the name that goes on with it.
def leadKinds : Receiver (Expr σ) → List TokenKind
  | .context => []
  | .type _ => []
  | .value (.member receiver _ _) => leadKinds receiver
  | .value target => pointAt target (kinds target)

def targetKinds : Receiver (Expr σ) → List TokenKind
  | .context => []
  | .type _ => []
  | .value target => kinds target

def argKinds : List (Expr σ) → List TokenKind
  | [] => []
  | [e] => kinds e
  | e :: es => kinds e ++ .comma :: argKinds es

end

theorem leadKinds_of_path {target : Expr σ} (none : target.path = []) :
    leadKinds (.value target) = pointAt target (kinds target) := by
  cases target with
  | member receiver m span => rw [path_member] at none; simp at none
  | literal | unary | binary | call | index => rfl

-- Induction along the printed form: a tree is built on a receiver, whose own tree is either one more
-- member of the same dotted name or the end of the name's run.
@[elab_as_elim]
theorem print_induction {motive : Expr σ → Prop} (lead : Receiver (Expr σ) → Prop)
    (context : lead .context) (type : ∀ name, lead (.type name))
    (along : ∀ receiver m span, lead receiver → lead (.value (.member receiver m span)))
    (base : ∀ target : Expr σ, target.path = [] → motive target → lead (.value target))
    (literal : ∀ value span, motive (.literal value span))
    (unary : ∀ op operand ty span, motive operand → motive (.unary op operand ty span))
    (binary : ∀ op left right ty span, motive left → motive right →
      motive (.binary op left right ty span))
    (member : ∀ receiver m span, lead receiver → motive (.member receiver m span))
    (call : ∀ receiver m args span, lead receiver → (∀ arg ∈ args, motive arg) →
      motive (.call receiver m args span))
    (index : ∀ receiver ix args span, (∀ target, receiver = .value target → motive target) → lead receiver →
      (∀ arg ∈ args, motive arg) → motive (.index receiver ix args span)) (e : Expr σ) : motive e := by
  have leads : ∀ receiver : Receiver (Expr σ), (∀ target, receiver = .value target → lead (.value target)) →
      lead receiver := by
    intro receiver below
    cases receiver with
    | context => exact context
    | type name => exact type name
    | value target => exact below target rfl
  -- A tree is met both by itself and in front of a dot, so both claims go through one induction.
  have both : motive e ∧ lead (.value e) := by
    induction e using Expr.induction with
    | literal value span => exact ⟨literal value span,base _ rfl (literal value span)⟩
    | unary op operand ty span below =>
      have here := unary op operand ty span below.1
      exact ⟨here,base _ rfl here⟩
    | binary op left right ty span first second =>
      have here := binary op left right ty span first.1 second.1
      exact ⟨here,base _ rfl here⟩
    | member receiver m span below =>
      have front := leads receiver fun target same => (below target same).2
      exact ⟨member receiver m span front,along receiver m span front⟩
    | call receiver m args span below arguments =>
      have front := leads receiver fun target same => (below target same).2
      have here := call receiver m args span front fun arg present => (arguments arg present).1
      exact ⟨here,base _ rfl here⟩
    | index receiver ix args span below arguments =>
      have front := leads receiver fun target same => (below target same).2
      have here := index receiver ix args span (fun target same => (below target same).1) front
        fun arg present => (arguments arg present).1
      exact ⟨here,base _ rfl here⟩
  exact both.1

def endsBefore : Expr σ → Char → Bool
  | .literal _ _, c => Lexeme.endsLiteral c
  | .unary _ operand _ _, c => endsBefore operand c
  | .member _ _ _, c => !Lexeme.continuesName c
  | _, _ => true

theorem endsBefore_of_endsLiteral (e : Expr σ) {c : Char} (ends : Lexeme.endsLiteral c = true) :
    e.endsBefore c = true := by
  induction e using Expr.induction with
  | literal => exact ends
  | unary _ _ _ _ below => exact below
  | member => exact (Bool.and_eq_true_iff.mp ends).2
  | binary | call | index => rfl

-- The first token is one that an operand can start with, or one that no text can hold.
def Starts (kinds : List TokenKind) : Prop :=
  ∃ kind rest, kinds = kind :: rest ∧ (kind.Spellable → kind.startsOperand = true)

theorem Starts.append {kinds : List TokenKind} (starts : Starts kinds) (others : List TokenKind) :
    Starts (kinds ++ others) := by
  obtain ⟨kind,rest,rfl,is⟩ := starts
  exact ⟨kind,rest ++ others,rfl,is⟩

theorem Starts.pointAt {target : Expr σ} (starts : Starts target.kinds) :
    Starts (pointAt target target.kinds) := by
  unfold Expr.pointAt
  split
  · exact ⟨_,_,rfl,fun _ => rfl⟩
  · exact starts.append _

theorem Starts.lead {kinds others : List TokenKind} {spelling : String} (starts : kinds ≠ [] → Starts kinds) :
    Starts (kinds ++ .name spelling :: others) := by
  by_cases none : kinds = []
  · rw [none]
    exact ⟨_,_,rfl,fun _ => rfl⟩
  · exact (starts none).append _

theorem kinds_start (e : Expr σ) : Starts e.kinds := by
  induction e using print_induction (fun receiver => leadKinds receiver ≠ [] → Starts (leadKinds receiver)) with
  | context filled => exact absurd rfl filled
  | type _ filled => exact absurd rfl filled
  | along receiver m span lead filled => exact lead filled
  | base target none starts _ =>
    rw [leadKinds_of_path none]
    exact starts.pointAt
  | literal value span =>
    refine ⟨_,[],rfl,?_⟩
    generalize value.reread = v
    cases v <;> intro spellable <;> first | rfl | exact spellable.elim
  | unary op => exact ⟨_,_,rfl,fun _ => by cases op <;> rfl⟩
  | binary => exact ⟨_,_,rfl,fun _ => rfl⟩
  | member receiver m span lead => exact .lead lead
  | call receiver m args span lead _ => exact .lead lead
  | index receiver ix args span below _ _ =>
    cases receiver with
    | context | type => exact ⟨_,_,rfl,fun _ => rfl⟩
    | value target => exact (below target rfl).append _

end Expr

namespace Lexeme

-- An equals sign starts no operator of two characters.
theorem scan_equal {cs : List Char} {kind : TokenKind} (is : (scan '=' cs).outcome = .ok kind) :
    kind = .equal := by
  change (ofComparison '=' cs).outcome = _ at is
  cases cs with
  | nil => cases is; rfl
  | cons second rest =>
    have alone : comparison? '=' second = none := by simp [comparison?]
    simp only [ofComparison,alone] at is
    split at is
    · cases is
    · cases is; rfl

end Lexeme

namespace Lexer

variable {rest : List Char} {ks : List TokenKind}

theorem Cuts.noEqual (cuts : Cuts rest ks) (starts : Expr.Starts ks) :
    ∀ c, rest.head? = some c → c ≠ '=' := by
  rintro c first rfl
  obtain ⟨kind,others,rfl,operand⟩ := starts
  obtain ⟨cs,rfl⟩ : ∃ cs, rest = '=' :: cs := by
    cases rest with
    | nil => cases first
    | cons d cs => cases first; exact ⟨cs,rfl⟩
  have stands : ('=' :: cs).dropWhile Text.isBlank = '=' :: cs := List.dropWhile_cons_of_neg (by decide)
  obtain ⟨tokens,scans,are⟩ := cuts 0
  cases scans with
  | done blank => rw [stands] at blank; cases blank
  | lexeme skipped _ is =>
    rw [stands] at skipped
    cases skipped
    have same := (List.cons.inj are).1
    rw [← same,Lexeme.scan_equal is] at operand
    cases operand trivial

theorem Cuts.unary (op : UnaryOp) (cuts : Cuts rest ks) (starts : Expr.Starts ks) :
    Cuts (op.symbol.toList ++ rest) (op.kind :: ks) := by
  cases op with
  | negate => exact .single (by decide) rfl cuts
  | not =>
    have other := cuts.noEqual starts
    have scanned : Lexeme.scan '!' rest = ⟨.ok .not,['!'],rest⟩ := by
      change Lexeme.paired '!' '=' .not .notEqual rest = _
      cases rest with
      | nil => rfl
      | cons c cs => rw [Lexeme.paired,if_neg (other c rfl)]
    change Cuts ('!' :: rest) _
    exact .lexeme (by decide) (by rw [scanned]; rfl) (by rw [scanned]) cuts

theorem Cuts.binary (op : BinaryOp) (cuts : Cuts (' ' :: rest) ks) :
    Cuts (op.symbol.toList ++ ' ' :: rest) (op.kind :: ks) := by
  cases op <;> exact .lexeme (by decide) rfl rfl cuts

end Lexer

namespace Expr

open Lexer

theorem names_push (receiver : Receiver (Expr σ)) (name rest : String) :
    dotted (receiver.names ++ [name ++ "." ++ rest]) = dotted (receiver.names ++ [name] ++ [rest]) := by
  have joined : dotted [name ++ "." ++ rest] = dotted [name,rest] := by
    rw [dotted_cons name (List.cons_ne_nil _ _),dotted_singleton,dotted_singleton]
  by_cases none : receiver.names = []
  · rw [none]
    exact joined
  · rw [List.append_assoc,dotted_append none (List.cons_ne_nil _ _),joined,
      dotted_append none (by simp)]
    rfl

-- The lexer cuts what is printed for a tree into the tokens of the tree, whatever may follow.
def Cut (e : Expr σ) : Prop := ∀ ⦃rest : List Char⦄ ⦃ks : List TokenKind⦄, (∀ kind ∈ e.kinds, kind.Spellable) →
  (∀ c, rest.head? = some c → e.endsBefore c = true) → Cuts rest ks → Cuts (e.print.toList ++ rest) (e.kinds ++ ks)

-- The same for a receiver and the name that goes on with it.
def LeadCut (receiver : Receiver (Expr σ)) : Prop := (∀ kind ∈ leadKinds receiver, kind.Spellable) →
  ∀ (name : String) ⦃rest : List Char⦄ ⦃ks : List TokenKind⦄, IsName (dotted (receiver.names ++ [name])) →
    (∀ c, rest.head? = some c → Lexeme.continuesName c = false) → Cuts rest ks →
    Cuts ((printReceiver receiver).toList ++ (name.toList ++ rest))
      (leadKinds receiver ++ .name (dotted (receiver.names ++ [name])) :: ks)

theorem Cut.before {e : Expr σ} (cut : e.Cut) {close : Char} (ends : Lexeme.endsLiteral close = true) {rest : List Char}
    {ks : List TokenKind} (spellable : ∀ kind ∈ e.kinds, kind.Spellable) (cuts : Cuts (close :: rest) ks) :
    Cuts (e.print.toList ++ close :: rest) (e.kinds ++ ks) := by
  refine cut spellable ?_ cuts
  rintro _ ⟨⟩
  exact e.endsBefore_of_endsLiteral ends

theorem leadCut_type (typeName : String) : LeadCut (.type typeName : Receiver (Expr σ)) := by
  intro _ name rest ks isName stops cuts
  have split : dotted [typeName,name] = typeName ++ "." ++ name := by
    rw [dotted_cons _ (List.cons_ne_nil _ _),dotted_singleton]
  rw [Receiver.names,List.singleton_append,split] at isName ⊢
  have read := Cuts.name isName stops cuts
  rw [printReceiver,← List.append_assoc,← String.toList_append]
  exact read

theorem LeadCut.along {receiver : Receiver (Expr σ)} (lead : LeadCut receiver) (m : Member σ) (span : Span) :
    LeadCut (.value (.member receiver m span)) := by
  intro inFront name rest ks isName stops cuts
  rw [Receiver.names,path_member,← names_push] at isName ⊢
  have read := lead inFront _ isName stops cuts
  rw [printReceiver,show needsParens (.member receiver m span) = false from rfl,
    if_neg Bool.false_ne_true,print]
  simp only [String.toList_append,List.append_assoc] at read ⊢
  exact read

theorem Cut.lead {target : Expr σ} (cut : target.Cut) (none : target.path = []) : LeadCut (.value target) := by
  intro inFront name rest ks isName stops cuts
  rw [leadKinds_of_path none] at inFront ⊢
  rw [Receiver.names,none,List.nil_append,dotted_singleton] at isName ⊢
  have goesOn : Cuts ('.' :: (name.toList ++ rest)) (.dot :: .name name :: ks) :=
    .single (by decide) rfl (.name isName stops cuts)
  rw [printReceiver]
  unfold pointAt at inFront ⊢
  by_cases parens : target.needsParens = true
  · rw [if_pos parens] at inFront ⊢
    rw [if_pos parens]
    have closed := cut.before (by decide) (fun kind present => inFront kind (by simp [present]))
      (.single (c := ')') (by decide) rfl goesOn)
    have opened := Cuts.single (c := '(') (by decide) rfl closed
    simpa using opened
  · rw [if_neg parens] at inFront ⊢
    rw [if_neg parens]
    have open' : ∀ c, ('.' :: (name.toList ++ rest)).head? = some c → target.endsBefore c = true := by
      intro c _
      cases target with
      | literal | unary => exact absurd rfl parens
      | member => rw [path_member] at none; simp at none
      | binary | call | index => rfl
    have read := cut (fun kind present => inFront kind (by simp [present])) open' goesOn
    simpa using read

theorem cut_binary {left right : Expr σ} (first : left.Cut) (second : right.Cut) (op : BinaryOp) (ty : Ty)
    (span : Span) : (Expr.binary op left right ty span).Cut := by
  intro rest ks spellable _ cuts
  have behind := second.before (by decide) (fun kind present => spellable kind (by simp [kinds,present]))
    (.single (c := ')') (by decide) rfl cuts)
  have before := first.before (by decide) (fun kind present => spellable kind (by simp [kinds,present]))
    (.blank (c := ' ') (by decide) (.binary op (.blank (by decide) behind)))
  have opened := Cuts.single (c := '(') (by decide) rfl before
  simpa [print,kinds] using opened

theorem printArgs_cuts {args : List (Expr σ)} {close : Char} (ends : Lexeme.endsLiteral close = true)
    (each : ∀ arg ∈ args, arg.Cut) (spellable : ∀ kind ∈ argKinds args, kind.Spellable) {rest : List Char}
    {ks : List TokenKind} (cuts : Cuts (close :: rest) ks) :
    Cuts ((printArgs args).toList ++ close :: rest) (argKinds args ++ ks) := by
  induction args with
  | nil => exact cuts
  | cons e es ih =>
    have others := ih fun arg present => each arg (List.mem_cons_of_mem _ present)
    have here := each e List.mem_cons_self
    cases es with
    | nil => exact here.before ends spellable cuts
    | cons next es =>
      have behind := others fun kind present => spellable kind (by simp [argKinds,present])
      have comma := Cuts.single (c := ',') (by decide) rfl (behind.blank (c := ' ') (by decide))
      have read := here.before (by decide) (fun kind present => spellable kind (by simp [argKinds,present])) comma
      simpa [printArgs,argKinds] using read

theorem cut_call {receiver : Receiver (Expr σ)} {args : List (Expr σ)} (lead : LeadCut receiver)
    (each : ∀ arg ∈ args, arg.Cut) (m : Method σ) (span : Span) : (Expr.call receiver m args span).Cut := by
  intro rest ks spellable _ cuts
  have inner : ∀ kind ∈ argKinds args, kind.Spellable := fun kind present => spellable kind (by simp [kinds,present])
  have closed := printArgs_cuts (by decide) each inner (.single (c := ')') (by decide) rfl cuts)
  have opened := Cuts.single (c := '(') (by decide) rfl closed
  have named := spellable (.name (dotted (receiver.names ++ [m.name]))) (by simp [kinds])
  have read := lead (fun kind present => spellable kind (List.mem_append_left _ present)) m.name named
    (by rintro _ ⟨⟩; decide) opened
  simpa [print,kinds] using read

theorem cut_index {receiver : Receiver (Expr σ)} {args : List (Expr σ)}
    (below : ∀ target, receiver = .value target → target.Cut) (each : ∀ arg ∈ args, arg.Cut) (ix : Indexer σ)
    (span : Span) : (Expr.index receiver ix args span).Cut := by
  intro rest ks spellable _ cuts
  have inner : ∀ kind ∈ argKinds args, kind.Spellable := fun kind present => spellable kind (by simp [kinds,present])
  have closed := printArgs_cuts (by decide) each inner (.single (c := ']') (by decide) rfl cuts)
  have opened := Cuts.single (c := '[') (by decide) rfl closed
  cases receiver with
  | context | type => simpa [print,kinds,printTarget,targetKinds] using opened
  | value target =>
    have read := (below target rfl).before (by decide)
      (fun kind present => spellable kind (List.mem_append_left _ present)) opened
    simpa [print,kinds,printTarget,targetKinds] using read

theorem print_cuts (e : Expr σ) : e.Cut := by
  induction e using print_induction LeadCut with
  | context =>
    intro _ name rest ks isName stops cuts
    rw [Receiver.names,List.nil_append,dotted_singleton] at isName ⊢
    exact .name isName stops cuts
  | type typeName => exact leadCut_type typeName
  | along receiver m span lead => exact lead.along m span
  | base target none cut => exact cut.lead none
  | literal value span =>
    intro rest ks spellable follows cuts
    exact .literal ((TokenKind.spellable_reread value).mp (spellable _ List.mem_cons_self)) follows cuts
  | unary op operand ty span below =>
    intro rest ks spellable follows cuts
    have inner := fun kind present => spellable kind (List.mem_cons_of_mem _ present)
    have read := Cuts.unary op (below inner follows cuts) (operand.kinds_start.append ks)
    rw [print,String.toList_append,List.append_assoc]
    exact read
  | binary op left right ty span first second => exact cut_binary first second op ty span
  | member receiver m span lead =>
    intro rest ks spellable follows cuts
    rw [print,kinds,String.toList_append,List.append_assoc,List.append_assoc]
    have named := spellable _ (List.mem_append_right _ List.mem_cons_self)
    exact lead (fun kind present => spellable kind (List.mem_append_left _ present)) m.name named
      (fun c first => by simpa [endsBefore] using follows c first) cuts
  | call receiver m args span lead each => exact cut_call lead each m span
  | index receiver ix args span below _ each => exact cut_index below each ix span

end Expr
end TypedFormula
