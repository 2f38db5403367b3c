import TypedFormula.Proofs.Relocation
import TypedFormula.Proofs.TokenRows

namespace TypedFormula

open Text

-- A token as it is, or a name without some of its last parts.
inductive Token.CutsTo (token : Token) : Token → Prop where
  | whole : CutsTo token token
  | shorter {front back : String} (is : token.kind = .name (front ++ "." ++ back)) (isName : IsName front) :
      CutsTo token ⟨.name front,⟨token.span.start,token.span.start + byteLength front.toList⟩⟩

def Token.endAt (position : Nat) : Token := ⟨.ending,⟨position,position⟩⟩

theorem Token.CutsTo.start {token other : Token} (cut : token.CutsTo other) :
    other.span.start = token.span.start := by
  cases cut <;> rfl

theorem Token.Stands.cut {boundary : Nat → Prop} {token other : Token} (stands : token.Stands boundary)
    (cut : token.CutsTo other) : other.Stands boundary ∧ other.span.stop ≤ token.span.stop := by
  cases cut with
  | whole => exact ⟨stands,Nat.le_refl _⟩
  | @shorter front back is isName =>
    obtain ⟨stop,boundaries⟩ := stands.spelled _ is
    obtain ⟨c,cs,split,_⟩ := isName.starts
    have filled : front.toList ≠ [] := by
      rw [split]
      exact List.cons_ne_nil _ _
    simp only [String.toList_append,List.append_assoc] at stop boundaries
    refine ⟨⟨⟨?_,stands.fills.starts,boundaries _ _ rfl⟩,?_,?_⟩,?_⟩
    · exact Nat.lt_add_of_pos_right (byteLength_pos filled)
    · rintro _ ⟨⟩
      exact isName
    · rintro _ ⟨⟩
      refine ⟨rfl,fun one two split => ?_⟩
      refine boundaries one (two ++ (".".toList ++ back.toList)) ?_
      rw [split,List.append_assoc]
    · rw [stop,byteLength_append]
      exact Nat.add_le_add_left (Nat.le_add_right _ _) _

namespace Lexeme

theorem scan_isName_ahead {spelling : String} {c : Char} {cs rest : List Char} (isName : IsName spelling)
    (split : spelling.toList = c :: cs) (stops : ∀ d, rest.head? = some d → continuesName d = false) :
    scan c (cs ++ rest) = ⟨.ok (.name spelling),spelling.toList,rest⟩ := by
  obtain ⟨d,ds,other,starts⟩ := isName.starts
  cases other.symm.trans split
  have run := takeWhile_run isName.continues stops
  have left := dropWhile_run isName.continues stops
  have noLastDot := isName.noLastDot
  have notTrue := isName.notTrue
  have notFalse := isName.notFalse
  rw [scan_name starts,ofName,← List.cons_append,← split]
  rw [run,left,String.ofList_toList,if_neg noLastDot,if_neg notTrue,if_neg notFalse]

theorem scan_isName {spelling : String} {c : Char} {cs : List Char} (isName : IsName spelling)
    (split : spelling.toList = c :: cs) : scan c cs = ⟨.ok (.name spelling),spelling.toList,[]⟩ := by
  have nothing : ∀ d, ([] : List Char).head? = some d → continuesName d = false := fun _ none => by cases none
  have whole := scan_isName_ahead isName split nothing
  rwa [List.append_nil] at whole

end Lexeme

namespace Lexer

variable {cs gap tail other : List Char} {position : Nat} {tokens front : List Token} {c : Char} {kind : TokenKind}

theorem Scans.ahead (blank : ∀ c ∈ gap, isBlank c = true) (visible : isBlank c = false)
    (scanned : Lexeme.scan c (tail ++ other) = ⟨.ok kind,c :: tail,other⟩)
    (scans : Scans (position + byteLength gap + byteLength (c :: tail)) other tokens) :
    Scans position (gap ++ (c :: tail ++ other))
      (⟨kind,⟨position + byteLength gap,position + byteLength gap + byteLength (c :: tail)⟩⟩ :: tokens) := by
  have stop : ∀ d, (c :: tail ++ other).head? = some d → isBlank d = false := by
    intro d first
    cases first
    exact visible
  have taken := takeWhile_run blank stop
  have skipped : (gap ++ (c :: tail ++ other)).dropWhile isBlank = c :: (tail ++ other) := dropWhile_run blank stop
  refine .lexeme skipped (by rw [taken]) (by rw [scanned]) (by rw [scanned]) ?_
  rw [scanned]
  exact scans

theorem scans_end (position : Nat) : Scans position [] [Token.endAt position] := .done rfl rfl

theorem tokenize_lexeme (visible : isBlank c = false) (scanned : Lexeme.scan c tail = ⟨.ok kind,c :: tail,[]⟩) :
    tokenize (String.ofList (c :: tail)) =
      .ok [⟨kind,⟨0,byteLength (c :: tail)⟩⟩,.endAt (byteLength (c :: tail))] := by
  have again : Lexeme.scan c (tail ++ []) = ⟨.ok kind,c :: tail,[]⟩ := by rw [List.append_nil,scanned]
  have scans : Scans 0 ([] ++ (c :: tail ++ [])) _ :=
    Scans.ahead (List.forall_mem_nil _) visible again (scans_end _)
  rw [tokenize_ok_iff,String.toList_ofList]
  simpa [byteLength] using scans

theorem Front.scans {token : Token} (head : Front position cs token) (alike : StartsAs other head.rest)
    (others : Scans token.span.stop other tokens) :
    Scans position (head.gap ++ (head.chars ++ other)) (token :: tokens) := by
  obtain ⟨kind,start,stop⟩ := token
  obtain ⟨gap,c,tail,rest,blank,visible,_,starts,stops,scanned⟩ := head
  dsimp only at starts stops others
  subst starts stops
  exact .ahead blank visible (scanned other alike) others

theorem Scans.cut {token last : Token} {more : List Token} (scans : Scans position cs (front ++ token :: more))
    (inside : token.kind ≠ .ending) (cut : token.CutsTo last) : ∃ piece rest, cs = piece ++ rest ∧
      Scans position piece (front ++ [last,.endAt last.span.stop]) := by
  induction front generalizing position cs with
  | nil =>
    obtain ⟨head,_⟩ := scans.first fun _ => inside
    cases cut with
    | whole =>
      refine ⟨_,head.rest,?_,head.scans (startsAs_nil _) (scans_end _)⟩
      rw [List.append_nil,List.append_assoc]
      exact head.split
    | @shorter name back named isName =>
      have spelled := (head.firm.2 _ named).2
      obtain ⟨d,ds,spelling,_⟩ := isName.starts
      have same : head.first :: head.tail = d :: ds ++ (".".toList ++ back.toList) := by
        rw [show head.first :: head.tail = _ from spelled,String.toList_append,String.toList_append,spelling,
          List.append_assoc]
      have visible := head.visible
      rw [(List.cons.inj same).1] at visible
      have scanned : Lexeme.scan d (ds ++ []) = ⟨.ok (.name name),d :: ds,[]⟩ := by
        rw [List.append_nil,Lexeme.scan_isName isName spelling,spelling]
      rw [head.starts,spelling]
      refine ⟨_,".".toList ++ back.toList ++ head.rest,?_,Scans.ahead head.blank visible scanned (scans_end _)⟩
      rw [List.append_nil,List.append_assoc,← List.append_assoc (d :: ds),← same]
      exact head.split
  | cons first front ih =>
    obtain ⟨head,others⟩ := scans.first fun none => by cases front <;> cases none
    obtain ⟨piece,left,behind,scanned⟩ := ih others
    have alike : StartsAs piece head.rest := behind ▸ startsAs_append piece left
    refine ⟨_,left,?_,head.scans alike scanned⟩
    rw [List.append_assoc,List.append_assoc,← behind]
    exact head.split

theorem Scans.behind {whole : List Char} (splits : SplitsAt whole position cs)
    (scans : Scans position cs (front ++ tokens)) (filled : tokens ≠ []) :
    ∃ place rest, SplitsAt whole place rest ∧ Scans place rest tokens := by
  induction front generalizing position cs with
  | nil => exact ⟨position,cs,splits,scans⟩
  | cons first front ih =>
    obtain ⟨head,others⟩ := scans.first fun none => absurd (List.append_eq_nil_iff.mp none).2 filled
    exact ih (head.behind splits) others

theorem Scans.unpadded {token : Token} (scans : Scans position cs (token :: tokens)) :
    Scans token.span.start (cs.dropWhile isBlank) (token :: tokens) := by
  have stop : ∀ c, (cs.dropWhile isBlank).head? = some c → isBlank c = false := by
    intro c first
    have visible := List.head?_dropWhile_not isBlank cs
    rw [first] at visible
    exact visible
  have again : (cs.dropWhile isBlank).dropWhile isBlank = cs.dropWhile isBlank := dropWhile_run (List.forall_mem_nil _) stop
  have none : (cs.dropWhile isBlank).takeWhile isBlank = [] := takeWhile_run (List.forall_mem_nil _) stop
  cases scans with
  | done blank stops => exact .done (by rw [again,blank]) (by rw [none]; rfl)
  | lexeme skipped starts is stops others =>
    exact .lexeme (by rw [again,skipped]) (by rw [none]; rfl) is stops others

theorem Scans.ends {last : Token} (scans : Scans position cs (front ++ [last])) :
    last.span.start = position + byteLength cs := by
  induction front generalizing position cs with
  | nil => exact scans.last.1
  | cons first front ih =>
    obtain ⟨head,others⟩ := scans.first fun none => by cases front <;> cases none
    have whole := congrArg byteLength head.split
    rw [byteLength_append,byteLength_append] at whole
    rw [ih others,head.stops,head.starts]
    omega

theorem Scans.move_back {d : Nat} (scans : Scans position cs tokens) (le : d ≤ position) :
    Scans (position - d) cs (tokens.map (Token.move (· - d))) := by
  induction scans with
  | @done position cs stop blank stops =>
    have stops' : stop - d = position - d + byteLength (cs.takeWhile isBlank) := by omega
    exact .done blank stops'
  | @lexeme position cs c rest kind start stop tokens skipped starts is stops others ih =>
    have starts' : start - d = position - d + byteLength (cs.takeWhile isBlank) := by omega
    have stops' : stop - d = start - d + byteLength (Lexeme.scan c rest).chars := by omega
    exact .lexeme skipped starts' is stops' (ih (by omega))

theorem Scans.piece {token last : Token} {before more : List Token}
    (scans : Scans 0 cs (before ++ (front ++ token :: more))) (inside : token.kind ≠ .ending)
    (cut : token.CutsTo last) : ∃ piece,
      Between cs (TypedFormula.ahead front last).span.start last.span.stop piece ∧
      Scans 0 piece ((front ++ [last,.endAt last.span.stop]).map
        (Token.move (· - (TypedFormula.ahead front last).span.start))) := by
  obtain ⟨place,rest,splits,onward⟩ := scans.behind (splitsAt_zero cs) (by simp)
  obtain ⟨piece,left,rfl,scanned⟩ := onward.cut inside cut
  have split : piece.takeWhile isBlank ++ piece.dropWhile isBlank = piece := List.takeWhile_append_dropWhile
  obtain ⟨first,behind,tokens,start⟩ : ∃ first behind, front ++ [last,.endAt last.span.stop] = first :: behind ∧
      (TypedFormula.ahead front last).span.start = first.span.start := by
    cases front <;> exact ⟨_,_,rfl,rfl⟩
  rw [tokens] at scanned
  have onset := scanned.onset
  have core := scanned.unpadded
  have moved := core.move_back (Nat.le_refl _)
  rw [← tokens,List.append_cons] at core
  have ends := core.ends
  rw [start]
  refine ⟨piece.dropWhile isBlank,⟨left,?_,ends⟩,?_⟩
  · rw [onset]
    rw [← split,List.append_assoc] at splits
    exact splits.advance
  · rw [tokens,← Nat.sub_self first.span.start]
    exact moved

end Lexer
end TypedFormula
