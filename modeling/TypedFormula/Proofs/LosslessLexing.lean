import Mathlib.Data.List.TakeWhile
import TypedFormula.Proofs.Lexing

namespace TypedFormula

namespace Text

-- Byte `n` of a text lies between two characters or at an end, with `rest` behind it.
def SplitsAt (cs : List Char) (n : Nat) (rest : List Char) : Prop :=
  ∃ done, cs = done ++ rest ∧ byteLength done = n

def IsBoundary (cs : List Char) (n : Nat) : Prop := ∃ rest, SplitsAt cs n rest

def Between (cs : List Char) (start stop : Nat) (piece : List Char) : Prop :=
  ∃ rest, SplitsAt cs start (piece ++ rest) ∧ stop = start + byteLength piece

variable {cs piece rest : List Char} {n : Nat}

theorem slice?_of_between {span : Span} (between : Between cs span.start span.stop piece) :
    slice? cs span = some piece := by
  obtain ⟨rest,⟨done,rfl,start⟩,stop⟩ := between
  have length : span.length = byteLength piece := by
    rw [Span.length,stop,Nat.add_sub_cancel_left]
  simp [slice?,beforeByte,← start,length,dropBytes_append]

theorem SplitsAt.advance (splits : SplitsAt cs n (piece ++ rest)) :
    SplitsAt cs (n + byteLength piece) rest := by
  obtain ⟨done,whole,length⟩ := splits
  refine ⟨done ++ piece,by rw [whole,List.append_assoc],?_⟩
  rw [byteLength_append,length]

theorem SplitsAt.length (splits : SplitsAt cs n rest) : n + byteLength rest = byteLength cs := by
  obtain ⟨done,rfl,rfl⟩ := splits
  rw [byteLength_append]

theorem byteLength_pos (filled : piece ≠ []) : 0 < byteLength piece := by
  cases piece with
  | nil => exact absurd rfl filled
  | cons c cs =>
    have := c.utf8Size_pos
    simp only [byteLength]
    omega

theorem SplitsAt.none_behind (splits : SplitsAt cs (byteLength cs) rest) : rest = [] := by
  by_contra filled
  have := byteLength_pos filled
  have := splits.length
  omega

end Text

namespace Lexer

open Text

-- A step from one lexer to the next on its way through the source, with what the step gives.
structure Steps (source : String) (lx : Lexer) (outcome : Except Fault Token) (moved : Lexer) : Prop where
  -- Both positions are boundaries, and what is behind them is left to read.
  before : SplitsAt source.toList lx.position lx.rest
  after : SplitsAt source.toList moved.position moved.rest
  -- The lexeme goes from one boundary to another, inside the source.
  starts : IsBoundary source.toList moved.start
  ordered : moved.start ≤ moved.position
  inside : moved.position ≤ byteLength source.toList
  -- Only blanks lie between the step before and the lexeme.
  gap : ∃ blanks, Between source.toList lx.position moved.start blanks ∧ ∀ c ∈ blanks, isBlank c = true
  -- A step that has something to read moves on, even if it fails; any other is at the end.
  progress : (∃ c ∈ lx.rest, isBlank c = false) → lx.position < moved.position
  ending : (∀ c ∈ lx.rest, isBlank c = true) → moved.position = byteLength source.toList ∧
    outcome = .ok ⟨.ending,⟨moved.position,moved.position⟩⟩
  token : ∀ token, outcome = .ok token → moved.current = token ∧
    token.span = ⟨moved.start,moved.position⟩ ∧ (moved.start = moved.position ↔ token.kind = .ending)
  fault : ∀ fault, outcome = .error fault → moved.current = lx.current ∧
    fault.span = ⟨moved.start,moved.position⟩ ∧ moved.start < moved.position

variable {source : String} {lx : Lexer}

theorem onset_splits (before : SplitsAt source.toList lx.position lx.rest) :
    SplitsAt source.toList lx.onset (lx.rest.dropWhile isBlank) := by
  have split : lx.rest.takeWhile isBlank ++ lx.rest.dropWhile isBlank = lx.rest :=
    List.takeWhile_append_dropWhile
  rw [← split] at before
  exact before.advance

theorem gap_blank (before : SplitsAt source.toList lx.position lx.rest) :
    ∃ blanks, Between source.toList lx.position lx.onset blanks ∧ ∀ c ∈ blanks, isBlank c = true := by
  refine ⟨lx.rest.takeWhile isBlank,⟨lx.rest.dropWhile isBlank,?_,rfl⟩,?_⟩
  · rw [List.takeWhile_append_dropWhile]
    exact before
  · exact fun c present => List.mem_takeWhile_imp present

theorem steps_ending (before : SplitsAt source.toList lx.position lx.rest)
    (blank : lx.rest.dropWhile isBlank = []) : Steps source lx lx.next.1 lx.next.2 := by
  have onset := onset_splits before
  rw [blank] at onset
  have atEnd : lx.onset = byteLength source.toList := onset.length
  have all : ∀ c ∈ lx.rest, isBlank c = true := List.dropWhile_eq_nil_iff.mp blank
  rw [next_ending blank]
  refine ⟨before,onset,⟨_,onset⟩,Nat.le_refl _,Nat.le_of_eq atEnd,gap_blank before,?_,fun _ => ⟨atEnd,rfl⟩,?_,?_⟩
  · rintro ⟨c,present,visible⟩
    rw [all c present] at visible
    cases visible
  · intro token same
    cases same
    exact ⟨rfl,rfl,iff_of_true rfl rfl⟩
  · intro fault none
    cases none

-- A step over a lexeme moves on, whether the lexeme is a token or not.
theorem steps_lexeme (before : SplitsAt source.toList lx.position lx.rest) {c : Char} {cs : List Char}
    (skipped : lx.rest.dropWhile isBlank = c :: cs) {outcome : Except Fault Token} {current : Token}
    (token : ∀ token, outcome = .ok token → current = token ∧
      token.span = ⟨lx.onset,(lx.pass (Lexeme.scan c cs)).position⟩ ∧ token.kind ≠ .ending)
    (fault : ∀ fault, outcome = .error fault → current = lx.current ∧
      fault.span = ⟨lx.onset,(lx.pass (Lexeme.scan c cs)).position⟩) :
    Steps source lx outcome { lx.pass (Lexeme.scan c cs) with current := current } := by
  obtain ⟨filled,whole⟩ := Lexeme.scan_cuts c cs
  have onset := onset_splits before
  rw [skipped,← whole] at onset
  have inside := Nat.le.intro onset.advance.length
  have moves : lx.onset < (lx.pass (Lexeme.scan c cs)).position :=
    Nat.lt_add_of_pos_right (byteLength_pos filled)
  have present : c ∈ lx.rest :=
    (List.dropWhile_sublist _).subset (by rw [skipped]; exact List.mem_cons_self)
  have visible := List.head?_dropWhile_not isBlank lx.rest
  rw [skipped] at visible
  refine ⟨before,onset.advance,⟨_,onset⟩,Nat.le_of_lt moves,inside,gap_blank before,?_,?_,?_,?_⟩
  · exact fun _ => Nat.lt_of_le_of_lt (Nat.le_add_right _ _) moves
  · intro blank
    exact absurd (blank c present) (Bool.eq_false_iff.mp visible)
  · intro found same
    obtain ⟨isCurrent,span,kind⟩ := token found same
    exact ⟨isCurrent,span,iff_of_false (Nat.ne_of_lt moves) kind⟩
  · intro found same
    obtain ⟨isCurrent,span⟩ := fault found same
    exact ⟨isCurrent,span,moves⟩

theorem steps_next (before : SplitsAt source.toList lx.position lx.rest) :
    Steps source lx lx.next.1 lx.next.2 := by
  cases skipped : lx.rest.dropWhile isBlank with
  | nil => exact steps_ending before skipped
  | cons c cs =>
    cases outcome : (Lexeme.scan c cs).outcome with
    | ok kind =>
      rw [next_token skipped outcome]
      refine steps_lexeme before skipped ?_ (fun _ none => by cases none)
      intro token same
      cases same
      refine ⟨rfl,rfl,?_⟩
      rintro rfl
      exact Lexeme.scan_spellable c cs outcome
    | error cause =>
      rw [next_fault skipped outcome]
      refine steps_lexeme before skipped (fun _ none => by cases none) ?_
      intro fault same
      cases same
      exact ⟨rfl,rfl⟩

-- The lexer after some steps, whatever they gave, and what the step after those gives.
def after (lx : Lexer) : Nat → Lexer
  | 0 => lx
  | n + 1 => (lx.after n).next.2

def reading (lx : Lexer) (n : Nat) : Except Fault Token := (lx.after n).next.1

theorem after_succ (lx : Lexer) (n : Nat) : lx.after (n + 1) = lx.next.2.after n := by
  induction n with
  | zero => rfl
  | succ n ih => exact congrArg (fun moved => moved.next.2) ih

theorem after_steps (source : String) (n : Nat) : Steps source ((ofSource source).after n)
    ((ofSource source).reading n) ((ofSource source).after (n + 1)) := by
  induction n with
  | zero => exact steps_next ⟨[],rfl,rfl⟩
  | succ n ih => exact steps_next ih.after

theorem reading_ending (source : String) {n m : Nat} (le : n ≤ m)
    (blank : ∀ c ∈ ((ofSource source).after n).rest, isBlank c = true) :
    (ofSource source).reading m =
      .ok ⟨.ending,⟨byteLength source.toList,byteLength source.toList⟩⟩ := by
  have stays : ∀ c ∈ ((ofSource source).after m).rest, isBlank c = true := by
    induction m, le using Nat.le_induction with
    | base => exact blank
    | succ m _ ih =>
      have steps := after_steps source m
      have left := steps.after
      rw [(steps.ending ih).1] at left
      rw [left.none_behind]
      exact fun c none => by cases none
  obtain ⟨atEnd,outcome⟩ := (after_steps source m).ending stays
  rw [outcome,atEnd]

theorem reading_slice {n : Nat} {token : Token} (read : (ofSource source).reading n = .ok token)
    (inside : token.kind ≠ .ending) : ∃ c cs, (Lexeme.scan c cs).outcome = .ok token.kind ∧
      slice? source.toList token.span = some (Lexeme.scan c cs).chars := by
  have splits := onset_splits (after_steps source n).before
  rw [reading] at read
  cases skipped : ((ofSource source).after n).rest.dropWhile isBlank with
  | nil =>
    rw [next_ending skipped] at read
    cases read
    exact absurd rfl inside
  | cons c cs =>
    cases outcome : (Lexeme.scan c cs).outcome with
    | error cause =>
      rw [next_fault skipped outcome] at read
      cases read
    | ok kind =>
      rw [next_token skipped outcome] at read
      cases read
      rw [skipped,← (Lexeme.scan_cuts c cs).2] at splits
      exact ⟨c,cs,outcome,slice?_of_between ⟨_,splits,rfl⟩⟩

theorem next_shortens {token : Token} (given : lx.next.1 = .ok token) (inside : token.kind ≠ .ending) :
    lx.next.2.rest.length < lx.rest.length := by
  cases skipped : lx.rest.dropWhile isBlank with
  | nil =>
    rw [next_ending skipped] at given
    cases given
    exact absurd rfl inside
  | cons c cs =>
    have shorter := scan_shortens_rest skipped
    cases outcome : (Lexeme.scan c cs).outcome with
    | ok kind => rw [next_token skipped outcome]; exact shorter
    | error cause => rw [next_fault skipped outcome]; exact shorter

theorem collect_succ (steps : Nat) (lx : Lexer) : collect (steps + 1) lx = lx.next.1 ::
    match lx.next.1 with
    | .ok token => if token.kind = .ending then [] else collect steps lx.next.2
    | .error _ => [] := by
  rw [collect]
  rcases lx.next with ⟨outcome,moved⟩
  cases outcome with
  | error fault => rfl
  | ok token =>
    dsimp only
    split <;> rfl

theorem collect_readings (lx : Lexer) (steps : Nat) (enough : lx.rest.length < steps) :
    ∃ n ≤ lx.rest.length, collect steps lx = (List.range (n + 1)).map lx.reading ∧
      (∀ i < n, ∃ token, lx.reading i = .ok token ∧ token.kind ≠ .ending) ∧
      ∀ token, lx.reading n = .ok token → token.kind = .ending := by
  induction steps generalizing lx with
  | zero => omega
  | succ steps ih =>
    have first : lx.reading 0 = lx.next.1 := rfl
    have later : ∀ i, lx.reading (i + 1) = lx.next.2.reading i := fun i =>
      congrArg (fun moved => moved.next.1) (after_succ lx i)
    rw [collect_succ]
    cases given : lx.next.1 with
    | error fault =>
      refine ⟨0,Nat.zero_le _,by rw [List.range_one,List.map_singleton,first,given],by omega,?_⟩
      intro token same
      cases (first.trans given).symm.trans same
    | ok token =>
      dsimp only
      by_cases ends : token.kind = .ending
      · rw [if_pos ends]
        refine ⟨0,Nat.zero_le _,by rw [List.range_one,List.map_singleton,first,given],by omega,?_⟩
        intro other same
        cases (first.trans given).symm.trans same
        exact ends
      · -- The readings behind this one are those of the lexer that it leaves.
        have behind := next_shortens given ends
        obtain ⟨n,le,split,tokens,final⟩ := ih _ (Nat.lt_of_lt_of_le behind (Nat.le_of_lt_succ enough))
        refine ⟨n + 1,Nat.lt_of_le_of_lt le behind,?_,?_,?_⟩
        · rw [if_neg ends,split,List.range_succ_eq_map (n := n + 1),List.map_cons,List.map_map,first,given]
          exact congrArg _ (List.map_congr_left fun i _ => (later i).symm)
        · intro i less
          cases i with
          | zero => exact ⟨token,first.trans given,ends⟩
          | succ i =>
            rw [later]
            exact tokens i (Nat.lt_of_succ_lt_succ less)
        · rw [later]
          exact final

structure Piece where
  gap : List Char
  lexeme : List Char

def Piece.chars (piece : Piece) : List Char := piece.gap ++ piece.lexeme

def spansFrom : Nat → List Piece → List Span
  | _, [] => []
  | position, piece :: pieces =>
    let start := position + byteLength piece.gap
    let stop := start + byteLength piece.lexeme
    ⟨start,stop⟩ :: spansFrom stop pieces

theorem scans_pieces {position : Nat} {cs : List Char} {tokens : List Token} (scans : Scans position cs tokens) :
    ∃ pieces : List Piece, pieces.flatMap Piece.chars = cs ∧ tokens.map (·.span) = spansFrom position pieces ∧
      ∀ piece ∈ pieces, ∀ c ∈ piece.gap, isBlank c = true := by
  induction scans with
  | @done position cs stop blank stops =>
    have all : ∀ c ∈ cs, isBlank c = true := List.dropWhile_eq_nil_iff.mp blank
    refine ⟨[⟨cs,[]⟩],by simp [Piece.chars],?_,by simpa using all⟩
    rw [List.takeWhile_eq_self_iff.mpr all] at stops
    subst stops
    rfl
  | @lexeme position cs c rest kind start stop tokens skipped starts is stops others ih =>
    obtain ⟨pieces,whole,spans,blank⟩ := ih
    obtain ⟨_,cut⟩ := Lexeme.scan_cuts c rest
    refine ⟨⟨cs.takeWhile isBlank,(Lexeme.scan c rest).chars⟩ :: pieces,?_,?_,?_⟩
    · rw [List.flatMap_cons,whole,Piece.chars,List.append_assoc,cut,← skipped]
      exact List.takeWhile_append_dropWhile
    · subst stops starts
      exact congrArg (List.cons _) spans
    · intro piece present
      rcases List.mem_cons.mp present with rfl | later
      · exact fun c inGap => List.mem_takeWhile_imp inGap
      · exact blank piece later

-- Every step of a run takes the next lexeme or is at the end for good; so lexing ends with the first fault
-- or with the end, and the lexemes of its tokens make up the source with the blanks between them.
theorem lossless (source : String) :
    (∀ n, Steps source ((ofSource source).after n) ((ofSource source).reading n)
      ((ofSource source).after (n + 1))) ∧
    (∀ n, (∀ c ∈ ((ofSource source).after n).rest, isBlank c = true) → ∀ m ≥ n,
      (ofSource source).reading m =
        .ok ⟨.ending,⟨byteLength source.toList,byteLength source.toList⟩⟩) ∧
    (∃ n ≤ source.toList.length, tokenize source = ((List.range (n + 1)).map (ofSource source).reading).mapM id ∧
      (∀ i < n, ∃ token, (ofSource source).reading i = .ok token ∧ token.kind ≠ .ending) ∧
      ∀ token, (ofSource source).reading n = .ok token → token.kind = .ending) ∧
    ∀ tokens, tokenize source = .ok tokens → ∃ pieces : List Piece,
      pieces.flatMap Piece.chars = source.toList ∧ tokens.map (·.span) = spansFrom 0 pieces ∧
      ∀ piece ∈ pieces, ∀ c ∈ piece.gap, isBlank c = true := by
  refine ⟨after_steps source,fun n blank m le => reading_ending source le blank,?_,?_⟩
  · obtain ⟨n,le,split,run⟩ := collect_readings (ofSource source) _ (Nat.lt_succ_self _)
    exact ⟨n,le,congrArg (List.mapM id) split,run⟩
  · intro tokens tokenized
    exact scans_pieces ((tokenize_ok_iff source tokens).mp tokenized)

theorem invalid_operator_passed :
    (ofSource "é <> 1 ").reading 1 = .error ⟨.invalidOperator "<>",⟨3,5⟩⟩ ∧
    ((ofSource "é <> 1 ").after 1).position < ((ofSource "é <> 1 ").after 2).position ∧
    (ofSource "é <> 1 ").reading 2 = .ok ⟨.int 1,⟨6,7⟩⟩ ∧
    (ofSource "é <> 1 ").reading 7 = .ok ⟨.ending,⟨8,8⟩⟩ ∧
    tokenize "é <1 " = .ok [⟨.name "é",⟨0,2⟩⟩,⟨.less,⟨3,4⟩⟩,⟨.int 1,⟨4,5⟩⟩,⟨.ending,⟨6,6⟩⟩] ∧
    ∃ pieces : List Piece, pieces.flatMap Piece.chars = "é <1 ".toList ∧
      [⟨0,2⟩,⟨3,4⟩,⟨4,5⟩,⟨6,6⟩] = spansFrom 0 pieces := by
  have tokenized : tokenize "é <1 " =
      .ok [⟨.name "é",⟨0,2⟩⟩,⟨.less,⟨3,4⟩⟩,⟨.int 1,⟨4,5⟩⟩,⟨.ending,⟨6,6⟩⟩] := rfl
  obtain ⟨steps,ends,_,_⟩ := lossless "é <> 1 "
  obtain ⟨_,_,_,whole⟩ := lossless "é <1 "
  obtain ⟨pieces,chars,spans,_⟩ := whole _ tokenized
  have blank : ∀ c ∈ ((ofSource "é <> 1 ").after 3).rest, isBlank c = true := by
    rw [show ((ofSource "é <> 1 ").after 3).rest = [' '] from rfl]
    exact List.forall_mem_singleton.mpr rfl
  refine ⟨rfl,(steps 1).progress ?_,rfl,ends 3 blank 7 (by decide),tokenized,pieces,chars,spans⟩
  exact ⟨'<',by decide,by decide⟩

end Lexer
end TypedFormula
