import Mathlib.Data.List.Forall2
import TypedFormula.Proofs.CutTokens

namespace TypedFormula

open Text

namespace Lexeme

variable {c : Char} {cs other : List Char} {kind : TokenKind}

def Whole (kind : TokenKind) (cs : List Char) : Prop :=
  ∃ c tail, cs = c :: tail ∧ isBlank c = false ∧ scan c tail = ⟨.ok kind,cs,[]⟩

theorem Whole.ahead (whole : Whole kind cs) (blank : ∀ c, other.head? = some c → isBlank c = true) :
    ∃ c tail, cs = c :: tail ∧ isBlank c = false ∧ scan c (tail ++ other) = ⟨.ok kind,cs,other⟩ := by
  obtain ⟨c,tail,rfl,visible,scanned⟩ := whole
  obtain ⟨taken,chars,_,again⟩ := scan_again visible (congrArg outcome scanned)
  rw [scanned] at chars again
  cases chars
  exact ⟨c,tail,rfl,visible,again other fun d first => .inr (blank d first)⟩

theorem Whole.tokenize (whole : Whole kind cs) :
    Lexer.tokenize (String.ofList cs) = .ok [⟨kind,⟨0,byteLength cs⟩⟩,⟨.ending,⟨byteLength cs,byteLength cs⟩⟩] := by
  obtain ⟨c,tail,rfl,visible,scanned⟩ := whole
  exact Lexer.tokenize_lexeme visible scanned

end Lexeme

namespace Lexer

variable {source cs : List Char} {position : Nat} {row : List Token}

theorem Front.whole {token : Token} (front : Front position cs token) : Lexeme.Whole token.kind front.chars := by
  have scanned := front.scanned [] (startsAs_nil _)
  rw [List.append_nil] at scanned
  exact ⟨_,_,rfl,front.visible,scanned⟩

theorem Scans.slices (splits : SplitsAt source position cs) (scans : Scans position cs row) :
    ∃ tokens last slices, row = tokens ++ [last] ∧ last.kind = .ending ∧
      tokens.map (fun token => slice? source token.span) = slices.map some ∧
      List.Forall₂ Lexeme.Whole (tokens.map (·.kind)) slices := by
  induction row generalizing position cs with
  | nil => cases scans
  | cons token row ih =>
    by_cases ends : row = [] ∧ token.kind = .ending
    · obtain ⟨rfl,ending⟩ := ends
      exact ⟨[],token,[],rfl,ending,rfl,.nil⟩
    · obtain ⟨front,others⟩ := scans.first fun none ending => ends ⟨none,ending⟩
      obtain ⟨tokens,last,slices,rfl,ending,sliced,wholes⟩ := ih (front.behind splits) others
      have slice : slice? source token.span = some front.chars :=
        slice?_of_between ⟨front.rest,front.onset splits,front.stops⟩
      refine ⟨token :: tokens,last,front.chars :: slices,rfl,ending,?_,.cons front.whole wholes⟩
      rw [List.map_cons,List.map_cons,slice,sliced]

theorem cuts_pieces {kinds : List TokenKind} {pieces : List Piece} {trail : List Char}
    (wholes : List.Forall₂ Lexeme.Whole kinds (pieces.map Piece.lexeme))
    (blank : ∀ piece ∈ pieces, ∀ c ∈ piece.gap, isBlank c = true)
    (apart : ∀ piece ∈ pieces.tail, piece.gap ≠ []) (behind : ∀ c ∈ trail, isBlank c = true) :
    Cuts (pieces.flatMap Piece.chars ++ trail) kinds := by
  induction pieces generalizing kinds with
  | nil =>
    cases wholes
    simpa using Cuts.nil.blanks behind
  | cons piece pieces ih =>
    rw [List.map_cons] at wholes
    obtain _ | ⟨whole,wholes⟩ := wholes
    obtain ⟨gap,gaps⟩ := List.forall_mem_cons.mp blank
    have others := ih wholes gaps fun other later => apart other (List.mem_of_mem_tail later)
    have stops : ∀ c, (pieces.flatMap Piece.chars ++ trail).head? = some c → isBlank c = true := by
      intro c first
      cases pieces with
      | nil => exact behind c (List.mem_of_mem_head? first)
      | cons next pieces =>
        obtain ⟨d,blanks,filled⟩ := List.exists_cons_of_ne_nil (apart next List.mem_cons_self)
        obtain rfl : d = c := by simpa [Piece.chars,filled] using first
        exact gaps next List.mem_cons_self d (by rw [filled]; exact List.mem_cons_self)
    obtain ⟨c,tail,lexeme,visible,scanned⟩ := whole.ahead stops
    rw [List.flatMap_cons,Piece.chars,List.append_assoc,List.append_assoc,lexeme]
    refine Cuts.blanks gap (.lexeme visible ?_ ?_ others)
    · exact congrArg Lexeme.outcome scanned
    · exact congrArg Lexeme.rest scanned

theorem lexemes_apart {source : String} {row : List Token} (tokenized : tokenize source = .ok row) :
    ∃ tokens last slices, row = tokens ++ [last] ∧ last.kind = .ending ∧
      tokens.map (fun token => slice? source.toList token.span) = slices.map some ∧
      List.Forall₂ (fun token slice => tokenize (String.ofList slice) =
        .ok [⟨token.kind,⟨0,byteLength slice⟩⟩,⟨.ending,⟨byteLength slice,byteLength slice⟩⟩]) tokens slices ∧
      ∀ (pieces : List Piece) (trail : List Char), pieces.map Piece.lexeme = slices →
        (∀ piece ∈ pieces, ∀ c ∈ piece.gap, isBlank c = true) → (∀ piece ∈ pieces.tail, piece.gap ≠ []) →
        (∀ c ∈ trail, isBlank c = true) →
        ∃ others, tokenize (String.ofList (pieces.flatMap Piece.chars ++ trail)) = .ok others ∧
          others.map (·.kind) = row.map (·.kind) := by
  obtain ⟨tokens,last,slices,rfl,ending,sliced,wholes⟩ :=
    ((tokenize_ok_iff _ _).mp tokenized).slices (splitsAt_zero _)
  refine ⟨tokens,last,slices,rfl,ending,sliced,?_,?_⟩
  · exact (List.forall₂_map_left_iff.mp wholes).imp fun _ _ whole => whole.tokenize
  · rintro pieces trail rfl blank apart behind
    obtain ⟨others,scans,kinds⟩ := cuts_pieces wholes blank apart behind 0
    refine ⟨others,?_,?_⟩
    · rw [tokenize_ok_iff,String.toList_ofList]
      exact scans
    · rw [kinds,List.map_append,List.map_singleton,ending]

-- What is looked at behind a number, an operator and a name is left where it is.
theorem suffixed_apart :
    tokenize "1m!=x|y" = .ok [⟨.decimal ⟨false,1,0,by decide,by decide⟩,⟨0,2⟩⟩,⟨.notEqual,⟨2,4⟩⟩,
      ⟨.name "x",⟨4,5⟩⟩,⟨.bitOr,⟨5,6⟩⟩,⟨.name "y",⟨6,7⟩⟩,⟨.ending,⟨7,7⟩⟩] ∧
    tokenize "1m" = .ok [⟨.decimal ⟨false,1,0,by decide,by decide⟩,⟨0,2⟩⟩,⟨.ending,⟨2,2⟩⟩] ∧
    ∃ others, tokenize "1m !=\tx\n| y " = .ok others ∧ others.map (·.kind) =
      [.decimal ⟨false,1,0,by decide,by decide⟩,.notEqual,.name "x",.bitOr,.name "y",.ending] := by
  have tokenized : tokenize "1m!=x|y" = .ok [⟨.decimal ⟨false,1,0,by decide,by decide⟩,⟨0,2⟩⟩,⟨.notEqual,⟨2,4⟩⟩,
      ⟨.name "x",⟨4,5⟩⟩,⟨.bitOr,⟨5,6⟩⟩,⟨.name "y",⟨6,7⟩⟩,⟨.ending,⟨7,7⟩⟩] := rfl
  obtain ⟨tokens,last,slices,row,_,sliced,alone,spaced⟩ := lexemes_apart tokenized
  have init := congrArg List.dropLast row
  rw [List.dropLast_concat] at init
  subst init
  obtain rfl : slices = ["1m","!=","x","|","y"].map String.toList :=
    List.map_injective_iff.mpr (fun _ _ => Option.some.inj) (sliced.symm.trans rfl)
  refine ⟨tokenized,?_,?_⟩
  · cases alone with
    | cons first => exact first
  · have space : isBlank ' ' = true := rfl
    have tab : isBlank '\t' = true := rfl
    have newline : isBlank '\n' = true := rfl
    exact spaced [⟨[],['1','m']⟩,⟨[' '],['!','=']⟩,⟨['\t'],['x']⟩,⟨['\n'],['|']⟩,⟨[' '],['y']⟩] [' '] rfl
      (by simp [space,tab,newline]) (by simp) (by simp [space])

end Lexer
end TypedFormula
