import TypedFormula.Proofs.CutLexemes
import TypedFormula.Proofs.DottedNames
import TypedFormula.Proofs.LosslessLexing
import TypedFormula.Proofs.Readings

namespace TypedFormula

open Text

-- Things with spans lie one behind the other from byte `a` on, and the last of them ends at byte `b`.
def Row {α : Type} (span : α → Span) : Nat → List α → Nat → Prop
  | a, [], b => a = b
  | a, x :: xs, b => a ≤ (span x).start ∧ (span x).start ≤ (span x).stop ∧ Row span (span x).stop xs b

namespace Row

variable {α : Type} {span : α → Span} {a b : Nat} {x : α} {xs ys : List α}

theorem append_iff : Row span a (xs ++ ys) b ↔ ∃ m, Row span a xs m ∧ Row span m ys b := by
  induction xs generalizing a with
  | nil => simp [Row]
  | cons x xs ih => simp only [List.cons_append,Row,ih,exists_and_left,and_assoc]

theorem le (row : Row span a xs b) : a ≤ b := by
  induction xs generalizing a with
  | nil => exact Nat.le_of_eq row
  | cons x xs ih =>
    obtain ⟨starts,ordered,rest⟩ := row
    have := ih rest
    omega

theorem widen {c : Nat} (row : Row span a (x :: xs) b) (le : c ≤ a) : Row span c (x :: xs) b :=
  ⟨Nat.le_trans le row.1,row.2⟩

theorem unique {c : Nat} (row : Row span a xs b) (other : Row span a xs c) : b = c := by
  induction xs generalizing a with
  | nil => exact row.symm.trans other
  | cons x xs ih => exact ih row.2.2 other.2.2

theorem within (row : Row span a xs b) (present : x ∈ xs) : a ≤ (span x).start ∧ (span x).stop ≤ b := by
  obtain ⟨front,back,rfl⟩ := List.append_of_mem present
  obtain ⟨m,before,starts,ordered,rest⟩ := append_iff.mp row
  exact ⟨Nat.le_trans before.le starts,rest.le⟩

theorem ordered (row : Row span a xs b) (present : x ∈ xs) : (span x).start ≤ (span x).stop := by
  obtain ⟨front,back,rfl⟩ := List.append_of_mem present
  obtain ⟨_,_,_,ordered,_⟩ := append_iff.mp row
  exact ordered

theorem apart (row : Row span a xs b) : xs.Pairwise fun x y => (span x).stop ≤ (span y).start := by
  induction xs generalizing a with
  | nil => exact .nil
  | cons x xs ih =>
    obtain ⟨_,_,rest⟩ := row
    exact .cons (fun y present => (rest.within present).1) (ih rest)

end Row

structure Span.Fills (boundary : Nat → Prop) (span : Span) : Prop where
  filled : span.start < span.stop
  starts : boundary span.start
  stops : boundary span.stop

-- A name is spelled out in the bytes that it takes.
structure Token.Stands (boundary : Nat → Prop) (token : Token) : Prop where
  fills : token.span.Fills boundary
  isName : ∀ spelling, token.kind = .name spelling → IsName spelling
  spelled : ∀ spelling, token.kind = .name spelling →
    token.span.stop = token.span.start + byteLength spelling.toList ∧
      ∀ front back, spelling.toList = front ++ back → boundary (token.span.start + byteLength front)

namespace Text

theorem splitDots_join (cs : List Char) : (splitDots cs).1 ++ (splitDots cs).2.flatMap ('.' :: ·) = cs := by
  induction cs with
  | nil => rfl
  | cons c cs ih =>
    rw [splitDots]
    dsimp only
    split
    · rename_i dot
      rw [List.flatMap_cons,List.nil_append,List.cons_append,ih,dot]
    · rw [List.cons_append,ih]

end Text

namespace Segment

def SpelledIn (start : Nat) (cs : List Char) (segment : Segment) : Prop :=
  ∃ front back, cs = front ++ segment.text.toList ++ back ∧
    segment.span = ⟨start + byteLength front,start + byteLength front + byteLength segment.text.toList⟩

theorem SpelledIn.behind {start : Nat} {cs front : List Char} {segment : Segment}
    (spelled : SpelledIn (start + byteLength front) cs segment) : SpelledIn start (front ++ cs) segment := by
  obtain ⟨before,back,rfl,span⟩ := spelled
  refine ⟨front ++ before,back,by simp,?_⟩
  rw [span,byteLength_append,Nat.add_assoc]

theorem place_spelled (start : Nat) (piece back : List Char) : SpelledIn start (piece ++ back) (place start piece) := by
  have text : (place start piece).text.toList = piece := String.toList_ofList
  refine ⟨[],back,by rw [text]; rfl,?_⟩
  rw [text]
  rfl

theorem placeAfter_row (stop : Nat) (pieces : List (List Char)) :
    Row Segment.span stop (placeAfter stop pieces) (stop + byteLength (pieces.flatMap ('.' :: ·))) ∧
      ∀ segment ∈ placeAfter stop pieces, segment.SpelledIn stop (pieces.flatMap ('.' :: ·)) := by
  induction pieces generalizing stop with
  | nil => exact ⟨rfl,List.forall_mem_nil _⟩
  | cons piece pieces ih =>
    have behind : (place (stop + 1) piece).span.stop = stop + byteLength ('.' :: piece) := Nat.add_assoc _ _ _
    obtain ⟨row,spelled⟩ := ih (stop + byteLength ('.' :: piece))
    rw [placeAfter,List.flatMap_cons,byteLength_append,← Nat.add_assoc,behind]
    refine ⟨⟨Nat.le_succ _,Nat.le_add_right _ _,by rw [behind]; exact row⟩,?_⟩
    intro segment present
    rcases List.mem_cons.mp present with rfl | later
    · have dot := place_spelled (stop + byteLength ['.']) piece (pieces.flatMap ('.' :: ·))
      exact dot.behind
    · exact (spelled segment later).behind

end Segment

theorem DottedName.ofText_row (spelling : String) (start : Nat) :
    Row Segment.span start (ofText spelling start).parts (start + byteLength spelling.toList) ∧
      ∀ segment ∈ (ofText spelling start).parts, segment.SpelledIn start spelling.toList := by
  have join := splitDots_join spelling.toList
  obtain ⟨row,spelled⟩ := Segment.placeAfter_row (start + byteLength (splitDots spelling.toList).1)
    (splitDots spelling.toList).2
  rw [Nat.add_assoc,← byteLength_append,join] at row
  refine ⟨⟨Nat.le_refl _,Nat.le_add_right _ _,row⟩,?_⟩
  intro segment present
  rw [← join]
  rcases List.mem_cons.mp present with rfl | later
  · exact Segment.place_spelled start _ _
  · exact (spelled segment later).behind

-- The parts of a name lie one behind the other between two bytes, and the first takes some of them.
structure DottedName.Stands (boundary : Nat → Prop) (a b : Nat) (name : DottedName) : Prop where
  row : Row Segment.span a name.parts b
  places : ∀ segment ∈ name.parts, boundary segment.span.start ∧ boundary segment.span.stop
  starts : name.first.span.start = a
  filled : name.first.span.start < name.first.span.stop

theorem Token.Stands.parts {boundary : Nat → Prop} {token : Token} {spelling : String}
    (stands : token.Stands boundary) (is : token.kind = .name spelling) :
    (DottedName.ofText spelling token.span.start).Stands boundary token.span.start token.span.stop := by
  obtain ⟨row,spelled⟩ := DottedName.ofText_row spelling token.span.start
  obtain ⟨stop,boundaries⟩ := stands.spelled spelling is
  refine ⟨stop ▸ row,?_,rfl,?_⟩
  · intro segment present
    obtain ⟨front,back,split,span⟩ := spelled segment present
    rw [span]
    refine ⟨boundaries front _ (by rw [split,List.append_assoc]),?_⟩
    dsimp only
    rw [Nat.add_assoc,← byteLength_append]
    exact boundaries _ back split
  · obtain ⟨c,cs,split,starts⟩ := (stands.isName spelling is).starts
    have noDot : c ≠ '.' := by
      rintro rfl
      exact absurd starts (by decide)
    have first : (splitDots spelling.toList).1 ≠ [] := by
      rw [split,splitDots]
      dsimp only
      rw [if_neg noDot]
      exact List.cons_ne_nil _ _
    exact Nat.lt_add_of_pos_right (byteLength_pos first)

theorem DottedName.Stands.splitLast {boundary : Nat → Prop} {a b : Nat} {name path : DottedName} {method : Segment}
    (stands : name.Stands boundary a b) (split : name.splitLast? = some (path,method)) :
    ∃ m, path.Stands boundary a m ∧ m ≤ b := by
  have parts := parts_of_splitLast split
  have first : name.first = path.first := (List.cons.inj parts).1
  have row := stands.row
  rw [parts] at row
  obtain ⟨m,front,back⟩ := Row.append_iff.mp row
  refine ⟨m,⟨front,fun segment present => stands.places segment ?_,first ▸ stands.starts,first ▸ stands.filled⟩,back.le⟩
  rw [parts]
  exact List.mem_append_left _ present

namespace Text

theorem splitsAt_zero (cs : List Char) : SplitsAt cs 0 cs := ⟨[],rfl,rfl⟩

theorem getLast?_behind {front back : List Char} (filled : back ≠ []) :
    (front ++ back).getLast? = back.getLast? := by
  rw [List.getLast?_append,List.getLast?_eq_some_getLast filled,Option.some_or]

theorem trim_between {gap core blanks : List Char} (before : ∀ c ∈ gap, isBlank c = true)
    (behind : ∀ c ∈ blanks, isBlank c = true) (starts : ∀ c, core.head? = some c → isBlank c = false)
    (ends : ∀ c, core.getLast? = some c → isBlank c = false) (filled : core ≠ []) :
    trim (gap ++ (core ++ blanks)) = core := by
  have first : (gap ++ (core ++ blanks)).dropWhile isBlank = core ++ blanks := by
    refine dropWhile_run before fun c head => starts c ?_
    rw [List.head?_append,List.head?_eq_some_head filled,Option.some_or,← List.head?_eq_some_head filled] at head
    exact head
  have last : (blanks.reverse ++ core.reverse).dropWhile isBlank = core.reverse :=
    dropWhile_run (fun c present => behind c (List.mem_reverse.mp present))
      fun c head => ends c (by rw [← List.head?_reverse]; exact head)
  rw [trim,trimLeft,trimRight,first,List.reverse_append,last,List.reverse_reverse]

end Text

namespace Lexer

variable {whole cs : List Char} {position : Nat} {token : Token} {tokens : List Token}

-- The front of a text that a token is cut from: blanks, and characters that are scanned as the token in front
-- of any text that starts like the one behind them.
structure Front (position : Nat) (cs : List Char) (token : Token) where
  gap : List Char
  first : Char
  tail : List Char
  rest : List Char
  blank : ∀ c ∈ gap, isBlank c = true
  visible : isBlank first = false
  split : cs = gap ++ (first :: tail ++ rest)
  starts : token.span.start = position + byteLength gap
  stops : token.span.stop = token.span.start + byteLength (first :: tail)
  scanned : ∀ other, StartsAs other rest →
    Lexeme.scan first (tail ++ other) = ⟨.ok token.kind,first :: tail,other⟩

theorem Scans.first (scans : Scans position cs (token :: tokens)) (inside : tokens = [] → token.kind ≠ .ending) :
    ∃ front : Front position cs token, Scans token.span.stop front.rest tokens := by
  cases scans with
  | done => exact absurd rfl (inside rfl)
  | @lexeme _ _ c rest kind start stop _ skipped starts is stops others =>
    have visible : isBlank c = false := by
      have first := List.head?_dropWhile_not isBlank cs
      rw [skipped] at first
      exact first
    obtain ⟨tail,chars,split,again⟩ := Lexeme.scan_again visible is
    rw [chars] at stops
    have whole : cs = cs.takeWhile isBlank ++ (c :: tail ++ (Lexeme.scan c rest).rest) := by
      rw [← split,← skipped,List.takeWhile_append_dropWhile]
    exact ⟨⟨_,c,tail,_,fun d present => List.mem_takeWhile_imp present,visible,whole,starts,stops,
      fun other alike => again other alike.follows⟩,others⟩

theorem Scans.last (scans : Scans position cs [token]) :
    token.span.start = position + byteLength cs ∧ ∀ c ∈ cs, isBlank c = true := by
  cases scans with
  | done blank stops =>
    have all := List.dropWhile_eq_nil_iff.mp blank
    rw [List.takeWhile_eq_self_iff.mpr all] at stops
    exact ⟨stops,all⟩
  | lexeme _ _ _ _ others => cases others

namespace Front

variable (front : Front position cs token)

def chars : List Char := front.first :: front.tail

theorem firm : (∀ c, front.chars.getLast? = some c → isBlank c = false) ∧
    (∀ spelling, token.kind = .name spelling → IsName spelling ∧ front.chars = spelling.toList) := by
  have scanned := front.scanned front.rest fun _ same => same
  have is : (Lexeme.scan front.first (front.tail ++ front.rest)).outcome = .ok token.kind := by rw [scanned]
  have firm := Lexeme.scan_firm front.visible is
  have spellable := Lexeme.scan_spellable _ _ is
  rw [scanned] at firm
  refine ⟨firm.visible,fun spelling named => ⟨?_,firm.named spelling (congrArg _ named)⟩⟩
  rw [named] at spellable
  exact spellable

theorem onset (splits : SplitsAt whole position cs) : SplitsAt whole token.span.start (front.chars ++ front.rest) := by
  rw [front.split] at splits
  rw [front.starts]
  exact splits.advance

theorem behind (splits : SplitsAt whole position cs) : SplitsAt whole token.span.stop front.rest := by
  rw [front.stops]
  exact (front.onset splits).advance

theorem stands (front : Front position cs token) (splits : SplitsAt whole position cs) : token.Stands (IsBoundary whole) := by
  have onset := front.onset splits
  have stops := front.stops
  have filled : 0 < byteLength (front.first :: front.tail) := byteLength_pos (List.cons_ne_nil _ _)
  refine ⟨⟨by omega,⟨_,onset⟩,⟨_,front.behind splits⟩⟩,fun spelling named => (front.firm.2 spelling named).1,?_⟩
  intro spelling named
  have chars := (front.firm.2 spelling named).2
  refine ⟨by rw [stops,← chars]; rfl,?_⟩
  intro one two split
  rw [chars,split,List.append_assoc] at onset
  exact ⟨_,onset.advance⟩

end Front

theorem Scans.row (splits : SplitsAt whole position cs) (scans : Scans position cs tokens) :
    ∃ front last stop piece blanks, tokens = front ++ [last] ∧ Row Token.span position front stop ∧
      (∀ token ∈ front, token.Stands (IsBoundary whole)) ∧ cs = piece ++ blanks ∧
      stop = position + byteLength piece ∧ (∀ c ∈ blanks, isBlank c = true) ∧
      (∀ c, piece.getLast? = some c → isBlank c = false) ∧ (front = [] → piece = []) := by
  induction tokens generalizing position cs with
  | nil => cases scans
  | cons token tokens ih =>
    cases tokens with
    | nil =>
      obtain ⟨_,blank⟩ := scans.last
      exact ⟨[],token,position,[],cs,rfl,rfl,List.forall_mem_nil _,rfl,rfl,blank,fun _ none => (by cases none),fun _ => rfl⟩
    | cons next others =>
      obtain ⟨head,scans⟩ := scans.first fun none => by cases none
      obtain ⟨front,last,final,piece,blanks,same,row,stands,split,finals,blank,ends,none⟩ :=
        ih (head.behind splits) scans
      have starts := head.starts
      have stops := head.stops
      refine ⟨token :: front,last,final,head.gap ++ (head.chars ++ piece),blanks,by rw [same]; rfl,
        ⟨by omega,by omega,row⟩,?_,?_,?_,blank,?_,fun absent => by cases absent⟩
      · exact List.forall_mem_cons.mpr ⟨head.stands splits,stands⟩
      · refine head.split.trans ?_
        rw [split,Front.chars]
        simp only [List.append_assoc]
      · rw [finals,stops,starts,Front.chars,byteLength_append,byteLength_append]
        omega
      · intro d isLast
        have filled : head.chars ≠ [] := List.cons_ne_nil _ _
        by_cases nothing : piece = []
        · rw [nothing,List.append_nil,getLast?_behind filled] at isLast
          exact head.firm.1 d isLast
        · rw [← List.append_assoc,getLast?_behind nothing] at isLast
          exact ends d isLast

theorem Scans.onset (scans : Scans position cs (token :: tokens)) :
    token.span.start = position + byteLength (cs.takeWhile isBlank) := by
  cases scans with
  | done _ stops => exact stops
  | lexeme _ starts => exact starts

theorem Scans.trimmed {last : Token} {stop : Nat} (scans : Scans 0 cs (tokens ++ [last]))
    (row : Row Token.span 0 tokens stop) (filled : (ahead tokens last).span.start < stop) :
    (ahead tokens last).span.start = byteLength (cs.takeWhile isBlank) ∧
      Between cs (ahead tokens last).span.start stop (trim cs) := by
  have begins : (ahead tokens last).span.start = byteLength (cs.takeWhile isBlank) := by
    cases tokens with
    | nil =>
      cases row
      exact absurd filled (Nat.not_lt_zero _)
    | cons token tokens =>
      rw [← Nat.zero_add (byteLength _)]
      exact scans.onset
  obtain ⟨front,final,other,piece,blanks,split,same,_,whole,stops,behind,ends,_⟩ := scans.row (splitsAt_zero cs)
  obtain ⟨rfl,_⟩ := List.append_inj' split rfl
  cases row.unique same
  rw [begins] at filled ⊢
  have cut : cs.takeWhile isBlank ++ cs.dropWhile isBlank = cs := List.takeWhile_append_dropWhile
  -- The tokens take more than the blanks in front, so these blanks end inside the tokens' piece of text.
  obtain ⟨core,rfl,rest⟩ : ∃ core, piece = cs.takeWhile isBlank ++ core ∧ cs.dropWhile isBlank = core ++ blanks := by
    rcases List.append_eq_append_iff.mp (whole.symm.trans cut.symm) with ⟨more,gap,_⟩ | ⟨core,is,rest⟩
    · rw [gap,byteLength_append] at filled
      omega
    · exact ⟨core,is,rest⟩
  rw [byteLength_append] at stops
  have left : core ≠ [] := by
    rintro rfl
    rw [byteLength] at stops
    omega
  have first : ∀ c, core.head? = some c → isBlank c = false := by
    intro c head
    have visible := List.head?_dropWhile_not isBlank cs
    rw [rest,List.head?_append,head,Option.some_or] at visible
    exact visible
  have last : ∀ c, core.getLast? = some c → isBlank c = false := by
    intro c final
    refine ends c ?_
    rw [getLast?_behind left,final]
  have gap : ∀ c ∈ cs.takeWhile isBlank, isBlank c = true := fun c present => List.mem_takeWhile_imp present
  have trimmed := trim_between gap behind first last left
  rw [← rest,cut] at trimmed
  rw [trimmed]
  refine ⟨rfl,blanks,⟨cs.takeWhile isBlank,?_,rfl⟩,?_⟩
  · rw [← rest,cut]
  · omega

end Lexer
end TypedFormula
