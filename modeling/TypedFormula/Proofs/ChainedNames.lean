import TypedFormula.Proofs.Regrouping
import TypedFormula.Proofs.RoundTrip
import TypedFormula.Proofs.WholeFormulas

namespace TypedFormula

open Text

def IsPart (part : String) : Prop :=
  '.' ∉ part.toList ∧ ∃ span last, Lexer.tokenize part = .ok [⟨.name part,span⟩,last]

-- What a dot between two parts looks like. Blanks behind it need blanks or a parenthesis in front of it:
-- a name does not end in a dot.
structure Joint where
  -- Whether everything in front of the dot is in parentheses.
  enclosed : Bool
  before : List Char
  behind : List Char
  blank : ∀ c ∈ before ++ behind, isBlank c = true
  apart : enclosed = false → before = [] → behind = []

inductive ChainedName where
  | part (name : String)
  | joined (front : ChainedName) (joint : Joint) (name : String)

theorem IsPart.isName {part : String} (isPart : IsPart part) : IsName part := by
  obtain ⟨_,span,last,tokenized⟩ := isPart
  have read := Parser.read_of_tokenize tokenized List.mem_cons_self
  exact ((Lexer.readings_lie part _ read).named part rfl).1

theorem isName_dotted {parts : List String} (filled : parts ≠ []) (names : ∀ part ∈ parts, IsName part) :
    IsName (dotted parts) := by
  induction parts with
  | nil => exact absurd rfl filled
  | cons part parts ih =>
    have first := names part List.mem_cons_self
    by_cases alone : parts = []
    · rw [alone,dotted_singleton]
      exact first
    · rw [dotted_cons part alone]
      exact first.join (ih alone fun other present => names other (List.mem_cons_of_mem _ present))

namespace ChainedName

open Lexer

def parts : ChainedName → List String
  | .part name => [name]
  | .joined front _ name => front.parts ++ [name]

def nesting : ChainedName → Nat
  | .part _ => 0
  | .joined front joint _ => if joint.enclosed then front.nesting + 1 else front.nesting

def spelled : ChainedName → List Char
  | .part name => name.toList
  | .joined front joint name =>
    (if joint.enclosed then '(' :: front.spelled ++ [')'] else front.spelled) ++
      (joint.before ++ '.' :: joint.behind) ++ name.toList

theorem parts_ne_nil (name : ChainedName) : name.parts ≠ [] := by
  cases name with
  | part => exact List.cons_ne_nil _ _
  | joined => exact List.append_ne_nil_of_right_ne_nil _ (List.cons_ne_nil _ _)

end ChainedName

theorem Joint.gists_behind (joint : Joint) (rest : List Char) :
    Lexer.gists (joint.before ++ '.' :: joint.behind ++ rest) = .ok .dot :: Lexer.gists rest := by
  have before := fun c present => joint.blank c (List.mem_append_left _ present)
  have behind := fun c present => joint.blank c (List.mem_append_right _ present)
  have dot : Lexeme.single? '.' = some .dot := rfl
  rw [List.append_assoc,List.cons_append,Lexer.gists_blanks before,Lexer.gists_single dot (by decide),
    Lexer.gists_blanks behind]

-- The last parts of a spelling are read as one name, which plain dots make longer.
structure LastRun (spelled : List Char) (parts : List String) (depth : Nat) (lead : List Char) (kinds : List TokenKind)
    (last : List String) : Prop where
  filled : last ≠ []
  isName : IsName (dotted last)
  split : spelled = lead ++ (dotted last).toList
  lexed : ∀ rest, Lexer.gists (lead ++ rest) = kinds.map .ok ++ Lexer.gists rest
  spells : ∀ more, Parser.Spells (kinds ++ [TokenKind.name (dotted (last ++ more))]) (parts ++ more) depth

namespace LastRun

open Lexer

variable {spelled lead : List Char} {parts last : List String} {depth : Nat} {kinds : List TokenKind} {joint : Joint}
  {name : String}

theorem whole (run : LastRun spelled parts depth lead kinds last) :
    Parser.Spells (kinds ++ [TokenKind.name (dotted last)]) parts depth := by
  have spells := run.spells []
  rwa [List.append_nil,List.append_nil] at spells

theorem ahead (run : LastRun spelled parts depth lead kinds last) {rest : List Char}
    (stops : ∀ c, rest.head? = some c → Lexeme.continuesName c = false) :
    gists (spelled ++ rest) = (kinds ++ [TokenKind.name (dotted last)]).map .ok ++ gists rest := by
  rw [run.split,List.append_assoc,run.lexed,gists_name run.isName stops,List.map_append,List.append_assoc]
  rfl

theorem single (isName : IsName name) : LastRun name.toList [name] 0 [] [] [name] := by
  refine ⟨List.cons_ne_nil _ _,?_,?_,fun _ => rfl,fun more => .word (List.cons_ne_nil _ _)⟩
  · rw [dotted_singleton]
    exact isName
  · rw [dotted_singleton]
    rfl

theorem plain (run : LastRun spelled parts depth lead kinds last) (isName : IsName name) :
    LastRun (spelled ++ ['.'] ++ name.toList) (parts ++ [name]) depth lead kinds (last ++ [name]) := by
  have longer : dotted (last ++ [name]) = dotted last ++ "." ++ name := by
    rw [dotted_append run.filled (List.cons_ne_nil _ _),dotted_singleton]
  refine ⟨List.append_ne_nil_of_left_ne_nil run.filled _,?_,?_,run.lexed,?_⟩
  · rw [longer]
    exact run.isName.join isName
  · rw [longer,run.split]
    simp
  · intro more
    have spells := run.spells (name :: more)
    simpa using spells

theorem spaced (run : LastRun spelled parts depth lead kinds last) (isName : IsName name) (gap : joint.before ≠ []) :
    LastRun (spelled ++ (joint.before ++ '.' :: joint.behind) ++ name.toList) (parts ++ [name]) depth
      (spelled ++ (joint.before ++ '.' :: joint.behind)) (kinds ++ [TokenKind.name (dotted last),.dot]) [name] := by
  refine ⟨List.cons_ne_nil _ _,?_,?_,?_,?_⟩
  · rw [dotted_singleton]
    exact isName
  · rw [dotted_singleton]
  · intro rest
    have stops : ∀ c, (joint.before ++ '.' :: joint.behind ++ rest).head? = some c →
        Lexeme.continuesName c = false := by
      obtain ⟨d,ds,filled⟩ := List.exists_cons_of_ne_nil gap
      rw [filled]
      rintro _ ⟨⟩
      exact Lexeme.continuesName_of_isBlank (joint.blank d (by rw [filled]; exact List.mem_cons_self))
    rw [List.append_assoc,run.ahead stops,joint.gists_behind]
    simp
  · intro more
    have spells := run.whole.chained (List.cons_ne_nil name more)
    simpa using spells

theorem grouped (run : LastRun spelled parts depth lead kinds last) (isName : IsName name) :
    LastRun ('(' :: spelled ++ [')'] ++ (joint.before ++ '.' :: joint.behind) ++ name.toList) (parts ++ [name]) (depth + 1)
      ('(' :: spelled ++ [')'] ++ (joint.before ++ '.' :: joint.behind))
      (TokenKind.leftParen :: kinds ++ [TokenKind.name (dotted last),.rightParen,.dot]) [name] := by
  refine ⟨List.cons_ne_nil _ _,?_,?_,?_,?_⟩
  · rw [dotted_singleton]
    exact isName
  · rw [dotted_singleton]
  · intro rest
    have regroup : '(' :: spelled ++ [')'] ++ (joint.before ++ '.' :: joint.behind) ++ rest =
        '(' :: (spelled ++ ')' :: (joint.before ++ '.' :: joint.behind ++ rest)) := by simp
    have opening : Lexeme.single? '(' = some .leftParen := rfl
    have closing : Lexeme.single? ')' = some .rightParen := rfl
    rw [regroup,gists_single opening (by decide),run.ahead (by rintro _ ⟨⟩; decide),gists_single closing (by decide),
      joint.gists_behind]
    simp
  · intro more
    have spells := run.whole.grouped (List.cons_ne_nil name more)
    simpa using spells

end LastRun

theorem ChainedName.length_spelled (name : ChainedName) :
    byteLength (dotted name.parts).toList ≤ byteLength name.spelled := by
  induction name with
  | part name =>
    rw [parts,dotted_singleton]
    exact Nat.le_refl _
  | joined front joint name ih =>
    rw [parts,dotted_append front.parts_ne_nil (List.cons_ne_nil _ _),dotted_singleton,spelled]
    simp only [String.toList_append,byteLength_append]
    have front : byteLength front.spelled ≤
        byteLength (if joint.enclosed then '(' :: front.spelled ++ [')'] else front.spelled) := by
      split
      · rw [← List.singleton_append,List.append_assoc,byteLength_append,byteLength_append]
        omega
      · exact Nat.le_refl _
    have dot : byteLength ".".toList ≤ byteLength ('.' :: joint.behind) := Nat.le_add_right _ _
    omega

theorem ChainedName.last_run (name : ChainedName) (names : ∀ part ∈ name.parts, IsName part) :
    ∃ lead kinds last, LastRun name.spelled name.parts name.nesting lead kinds last := by
  induction name with
  | part name => exact ⟨_,_,_,.single (names name List.mem_cons_self)⟩
  | joined front joint name ih =>
    have isName := names name (List.mem_append_right _ List.mem_cons_self)
    obtain ⟨lead,kinds,last,run⟩ := ih fun part present => names part (List.mem_append_left _ present)
    rw [spelled,nesting]
    cases enclosed : joint.enclosed with
    | true => exact ⟨_,_,_,run.grouped isName⟩
    | false =>
      by_cases plain : joint.before = []
      · rw [plain,joint.apart enclosed plain]
        exact ⟨_,_,_,run.plain isName⟩
      · exact ⟨_,_,_,run.spaced isName plain⟩

namespace Parser

variable {σ : Type} {scope : Scope σ} {limits : Limits} {text text' : String}

theorem complete_gists (cs : List Char) : Complete (Lexer.gists cs) := by
  obtain ⟨tokens,reading,split,_,ends⟩ := Lexer.readings_shape (String.ofList cs)
  refine ⟨tokens.map (gist ∘ .ok),gist reading,?_,?_⟩
  · rw [Lexer.gists,split,List.map_append,List.map_map]
    rfl
  · intro kind is
    cases reading with
    | ok token =>
      cases is
      exact ends token rfl
    | error => cases is

theorem formula_concurs {s t : ParseState} (ran : Parse.bump (start text) = .ok () s)
    (ranToo : Parse.bump (start text') = .ok () t)
    (first : Concur ParseState.Same (Expr.Alike Eq) (operand scope limits (innerOf scope limits limits.maxDepth) s)
      (operand scope limits (innerOf scope limits limits.maxDepth) t)) :
    Concur ParseState.Same (Expr.Alike Eq) (formula scope limits text (start text))
      (formula scope limits text' (start text')) := by
  have inside := inner_mirrors scope limits limits.maxDepth
  have whole := expression_concurs (operand_mirrors inside) BinaryOp.layers first
  unfold formula
  rw [bind_run,ran,bind_run,ranToo,within_eq]
  refine Concur.bind whole fun e e' alike => Parse.current_mirrors.bind fun token token' kinds => ?_
  have low : e.firstDeeperThan limits.maxHeight = none ↔ e'.firstDeeperThan limits.maxHeight = none := by
    rw [Expr.firstDeeperThan_none_iff,Expr.firstDeeperThan_none_iff,alike.height]
  dsimp only
  rw [kinds]
  by_cases ends : token'.kind = .ending
  · rw [if_neg (not_not_intro ends),if_neg (not_not_intro ends)]
    cases found : e.firstDeeperThan limits.maxHeight with
    | none =>
      rw [low.mp found]
      exact (Parse.bind_mirrors (Binding.note_mirrors _ _)).bind fun _ _ _ => .pure alike
    | some span =>
      obtain ⟨span',foundToo⟩ : ∃ span', e'.firstDeeperThan limits.maxHeight = some span' := by
        rw [← Option.ne_none_iff_exists']
        exact fun none => by cases found.symm.trans (low.mpr none)
      rw [foundToo]
      exact .throw rfl
  · rw [if_pos ends,if_pos ends]
    exact fun _ _ _ => rfl

theorem parse_concurs {s t : ParseState} (ran : Parse.bump (start text) = .ok () s)
    (ranToo : Parse.bump (start text') = .ok () t)
    (first : Concur ParseState.Same (Expr.Alike Eq) (operand scope limits (innerOf scope limits limits.maxDepth) s)
      (operand scope limits (innerOf scope limits limits.maxDepth) t))
    (short : byteLength text.toList ≤ limits.maxLength) (shortToo : byteLength text'.toList ≤ limits.maxLength) :
    (∃ e e', parse scope limits text = .ok e ∧ parse scope limits text' = .ok e' ∧ Expr.Alike Eq e e') ∨
      ∃ fault fault', parse scope limits text = .error fault ∧ parse scope limits text' = .error fault' ∧
        fault.cause = fault'.cause := by
  have concurs := formula_concurs ran ranToo first
  unfold start at concurs
  unfold parse
  rw [run_short short,run_short shortToo]
  rcases concurs.settled with ⟨e,_,e',_,ran,ranToo,alike,_⟩ | ⟨fault,_,fault',_,ran,ranToo,causes⟩
  · rw [ran,ranToo]
    exact .inl ⟨e,e',rfl,rfl,alike⟩
  · rw [ran,ranToo]
    exact .inr ⟨fault,fault',rfl,rfl,causes⟩

-- What is behind a name is nothing, an indexer, or arguments.
theorem gists_suffix {tail : List Char} {callable : Prop}
    (suffix : ∀ c cs, tail.dropWhile isBlank = c :: cs → c = '[' ∨ c = '(' ∧ callable) :
    ∃ following rest, Lexer.gists tail = .ok following :: rest ∧ (following = .leftParen → callable) := by
  have blank : ∀ c ∈ tail.takeWhile isBlank, isBlank c = true := fun c present => List.mem_takeWhile_imp present
  have skipped : Lexer.gists (tail.takeWhile isBlank ++ tail.dropWhile isBlank) = _ := Lexer.gists_blanks blank
  rw [List.takeWhile_append_dropWhile] at skipped
  rw [skipped]
  cases left : tail.dropWhile isBlank with
  | nil => exact ⟨.ending,[],rfl,nofun⟩
  | cons c cs =>
    rcases suffix c cs left with rfl | ⟨rfl,callable⟩
    · have bracket : Lexeme.single? '[' = some .leftBracket := rfl
      exact ⟨_,_,Lexer.gists_single bracket (by decide),nofun⟩
    · have parenthesis : Lexeme.single? '(' = some .leftParen := rfl
      exact ⟨_,_,Lexer.gists_single parenthesis (by decide),fun _ => callable⟩

theorem stops_of_suffix {tail : List Char} {callable : Prop}
    (suffix : ∀ c cs, tail.dropWhile isBlank = c :: cs → c = '[' ∨ c = '(' ∧ callable) :
    ∀ c, tail.head? = some c → Lexeme.continuesName c = false := by
  cases tail with
  | nil => exact nofun
  | cons d ds =>
    rintro _ ⟨⟩
    cases blank : isBlank d with
    | true => exact Lexeme.continuesName_of_isBlank blank
    | false =>
      have first := suffix d ds (List.dropWhile_cons_of_neg (by rw [blank]; exact Bool.false_ne_true))
      rcases first with rfl | ⟨rfl,_⟩ <;> decide

theorem start_gists {cs : List Char} {kinds : List TokenKind} {rest : List (Except Cause TokenKind)}
    (shown : Lexer.gists cs = kinds.map .ok ++ rest) (filled : kinds ≠ []) :
    ∃ s, Parse.bump (start (String.ofList cs)) = .ok () s ∧ s.stream.map gist = kinds.map .ok ++ rest := by
  obtain ⟨kind,kinds,rfl⟩ := List.exists_cons_of_ne_nil filled
  obtain ⟨span,left,ahead,others⟩ := gist_ahead shown
  refine ⟨⟨⟨kind,span⟩,left,[]⟩,?_,congrArg (Except.ok kind :: ·) others⟩
  unfold start
  rw [ahead]
  rfl

-- A name of parts that can be read by themselves, the first of them a member of the context, with nothing, an
-- indexer or arguments behind it; arguments need parts in front of the last dot that are no type. However its
-- dots are spelled, it is parsed to the same tree up to spans, or fails for the same cause.
theorem chained_parsed_alike (scope : Scope σ) (limits : Limits) (name : ChainedName) (tail : List Char)
    (names : ∀ part ∈ name.parts, IsPart part) (starts : scope.StartsInContext name.parts)
    (suffix : ∀ c cs, tail.dropWhile isBlank = c :: cs →
      c = '[' ∨ c = '(' ∧ scope.registry.get? (dotted name.parts.dropLast) = none)
    (short : byteLength (name.spelled ++ tail) ≤ limits.maxLength) (shallow : name.nesting ≤ limits.maxDepth) :
    let plain := parse scope limits (String.ofList ((dotted name.parts).toList ++ tail))
    let chained := parse scope limits (String.ofList (name.spelled ++ tail))
    (∃ e e', plain = .ok e ∧ chained = .ok e' ∧ Expr.Alike Eq e e') ∨
      ∃ fault fault', plain = .error fault ∧ chained = .error fault' ∧ fault.cause = fault'.cause := by
  intro plain chained
  have isNames := fun part present => (names part present).isName
  obtain ⟨lead,kinds,last,run⟩ := name.last_run isNames
  obtain ⟨following,rest,tailShown,noType⟩ := gists_suffix suffix
  have stops := stops_of_suffix suffix
  have shown : Lexer.gists _ = [TokenKind.name (dotted name.parts)].map .ok ++ Lexer.gists tail :=
    Lexer.gists_name (isName_dotted name.parts_ne_nil isNames) stops
  have shownToo := run.ahead stops
  have complete := complete_gists tail
  rw [tailShown] at shown shownToo complete
  obtain ⟨s,ran,stream⟩ := start_gists shown (List.cons_ne_nil _ _)
  obtain ⟨t,ranToo,streamToo⟩ := start_gists shownToo run.whole.kinds_ne_nil
  have operands := run.whole.interchange limits (fun part present => (names part present).1) starts shallow complete
    noType s t stream streamToo
  refine parse_concurs ran ranToo operands ?_ ?_
  · refine Nat.le_trans ?_ short
    rw [String.toList_ofList,byteLength_append,byteLength_append]
    exact Nat.add_le_add_right name.length_spelled _
  · rw [String.toList_ofList]
    exact short

theorem chained_call_parsed : ∃ e e', parse boxScope {} "Inner.Size.ToString()" = .ok e ∧
    parse boxScope {} "(Inner . Size).ToString()" = .ok e' ∧ Expr.Alike Eq e e' := by
  let spaced : Joint :=
    ⟨false,[' '],[' '],List.forall_mem_cons.mpr ⟨by decide,List.forall_mem_singleton.mpr (by decide)⟩,nofun⟩
  let enclosed : Joint := ⟨true,[],[],List.forall_mem_nil _,nofun⟩
  let name : ChainedName := .joined (.joined (.part "Inner") spaced "Size") enclosed "ToString"
  have names : ∀ part ∈ name.parts, IsPart part := by
    intro part present
    change part ∈ ["Inner","Size","ToString"] at present
    simp only [List.mem_cons,List.not_mem_nil,or_false] at present
    rcases present with rfl | rfl | rfl
    · exact ⟨by decide,⟨0,5⟩,⟨.ending,⟨5,5⟩⟩,by decide +kernel⟩
    · exact ⟨by decide,⟨0,4⟩,⟨.ending,⟨4,4⟩⟩,by decide +kernel⟩
    · exact ⟨by decide,⟨0,8⟩,⟨.ending,⟨8,8⟩⟩,by decide +kernel⟩
  have member : (boxScope.contextMember? "Inner").isSome = true := by decide +kernel
  obtain ⟨⟨typeName,m⟩,found⟩ := Option.isSome_iff_exists.mp member
  have starts : boxScope.StartsInContext name.parts :=
    ⟨"Inner",["Size","ToString"],m,rfl,Scope.hasContextMember_iff.mpr ⟨typeName,found⟩⟩
  have noType : boxScope.registry.get? "Inner.Size" = none := by
    have missing : (boxScope.registry.get? "Inner.Size").isNone = true := by decide +kernel
    exact Option.isNone_iff_eq_none.mp missing
  have suffix : ∀ c cs, ['(',')'].dropWhile isBlank = c :: cs →
      c = '[' ∨ c = '(' ∧ boxScope.registry.get? (dotted name.parts.dropLast) = none := by
    rintro c cs same
    cases same
    exact .inr ⟨rfl,noType⟩
  obtain ⟨e,parsed⟩ : ∃ e, parse boxScope {} "Inner.Size.ToString()" = .ok e := exists_ok (by decide +kernel)
  have alike := chained_parsed_alike boxScope {} name ['(',')'] names starts suffix (by decide +kernel) (by decide)
  have plain : String.ofList ((dotted name.parts).toList ++ ['(',')']) = "Inner.Size.ToString()" := by decide +kernel
  have chained : String.ofList (name.spelled ++ ['(',')']) = "(Inner . Size).ToString()" := by decide +kernel
  rw [plain,chained] at alike
  rcases alike with both | ⟨fault,_,failed,_⟩
  · exact both
  · cases parsed.symm.trans failed

end Parser
end TypedFormula
