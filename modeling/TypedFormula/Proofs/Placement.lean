import TypedFormula.Proofs.TokenRows

namespace TypedFormula

open Text

structure Span.Aligned (boundary : Nat → Prop) (span : Span) : Prop where
  ordered : span.start ≤ span.stop
  starts : boundary span.start
  stops : boundary span.stop

namespace Span

variable {boundary : Nat → Prop} {a b : Span}

theorem Fills.aligned (fills : a.Fills boundary) : a.Aligned boundary :=
  ⟨Nat.le_of_lt fills.filled,fills.starts,fills.stops⟩

theorem Aligned.union (one : a.Aligned boundary) (two : b.Aligned boundary) : (a.union b).Aligned boundary := by
  refine ⟨Nat.le_trans (Nat.min_le_left _ _) (Nat.le_trans one.ordered (Nat.le_max_left _ _)),?_,?_⟩
  · rcases Nat.le_total a.start b.start with le | le
    · rw [Span.union,Nat.min_eq_left le]
      exact one.starts
    · rw [Span.union,Nat.min_eq_right le]
      exact two.starts
  · rcases Nat.le_total a.stop b.stop with le | le
    · rw [Span.union,Nat.max_eq_right le]
      exact two.stops
    · rw [Span.union,Nat.max_eq_left le]
      exact one.stops

end Span

theorem Text.Between.part {text front middle back : List Char} {start stop : Nat}
    (between : Between text start stop (front ++ middle ++ back)) :
    Between text (start + byteLength front) (start + byteLength front + byteLength middle) middle := by
  obtain ⟨rest,splits,_⟩ := between
  simp only [List.append_assoc] at splits
  exact ⟨back ++ rest,splits.advance,rfl⟩

-- The end of a text is no more than a place behind it. Every other token takes some bytes of the text, and a
-- name those that it is spelled with.
structure Token.LiesIn (text : List Char) (token : Token) : Prop where
  fills : token.kind ≠ .ending → token.span.Fills (IsBoundary text)
  ending : token.kind = .ending → token.span = ⟨byteLength text,byteLength text⟩
  named : ∀ spelling, token.kind = .name spelling →
    IsName spelling ∧ Between text token.span.start token.span.stop spelling.toList

def LiesIn (text : List Char) : Except Fault Token → Prop
  | .ok token => token.LiesIn text
  | .error fault => fault.span.Fills (IsBoundary text)

namespace Token.LiesIn

variable {text : List Char} {token : Token}

theorem aligned (lies : token.LiesIn text) : token.span.Aligned (IsBoundary text) := by
  by_cases ends : token.kind = .ending
  · rw [lies.ending ends]
    have behind : IsBoundary text (byteLength text) := ⟨[],text,(List.append_nil _).symm,rfl⟩
    exact ⟨Nat.le_refl _,behind,behind⟩
  · exact (lies.fills ends).aligned

theorem stands (lies : token.LiesIn text) (inside : token.kind ≠ .ending) : token.Stands (IsBoundary text) := by
  refine ⟨lies.fills inside,fun spelling is => (lies.named spelling is).1,?_⟩
  intro spelling is
  obtain ⟨rest,splits,stops⟩ := (lies.named spelling is).2
  refine ⟨stops,?_⟩
  intro front back split
  rw [split,List.append_assoc] at splits
  exact ⟨_,splits.advance⟩

theorem part (lies : token.LiesIn text) {spelling : String} (is : token.kind = .name spelling) :
    ∀ segment ∈ (DottedName.ofText spelling token.span.start).parts,
      Between text segment.span.start segment.span.stop segment.text.toList := by
  intro segment present
  obtain ⟨front,back,split,span⟩ := (DottedName.ofText_row spelling token.span.start).2 segment present
  have between := (lies.named spelling is).2
  rw [split] at between
  rw [span]
  exact between.part

end Token.LiesIn

namespace Lexer

variable {source : String} {lx : Lexer}

theorem next_lies (before : SplitsAt source.toList lx.position lx.rest) : LiesIn source.toList lx.next.1 := by
  have onset := onset_splits before
  cases skipped : lx.rest.dropWhile isBlank with
  | nil =>
    rw [skipped] at onset
    have atEnd : lx.onset = byteLength source.toList := onset.length
    rw [next_ending skipped,atEnd]
    exact ⟨fun inside => absurd rfl inside,fun _ => rfl,fun _ none => by cases none⟩
  | cons c cs =>
    obtain ⟨filled,whole⟩ := Lexeme.scan_cuts c cs
    rw [skipped,← whole] at onset
    have fills : Span.Fills (IsBoundary source.toList) ⟨lx.onset,(lx.pass (Lexeme.scan c cs)).position⟩ :=
      ⟨Nat.lt_add_of_pos_right (byteLength_pos filled),⟨_,onset⟩,⟨_,onset.advance⟩⟩
    cases outcome : (Lexeme.scan c cs).outcome with
    | error cause =>
      rw [next_fault skipped outcome]
      exact fills
    | ok kind =>
      rw [next_token skipped outcome]
      refine ⟨fun _ => fills,?_,?_⟩
      · rintro rfl
        exact (Lexeme.scan_spellable c cs outcome).elim
      · rintro spelling rfl
        have visible := List.head?_dropWhile_not isBlank lx.rest
        rw [skipped] at visible
        have chars := (Lexeme.scan_firm visible outcome).named spelling outcome
        rw [chars] at onset
        refine ⟨Lexeme.scan_spellable c cs outcome,_,onset,?_⟩
        rw [← chars]
        rfl

theorem readings_lie (text : String) : ∀ reading ∈ readings text, LiesIn text.toList reading := by
  obtain ⟨n,_,same,_⟩ := collect_readings (ofSource text) (text.toList.length + 1) (Nat.lt_succ_self _)
  intro reading present
  rw [readings,same] at present
  obtain ⟨i,_,rfl⟩ := List.mem_map.mp present
  exact next_lies (after_steps text i).before

end Lexer
end TypedFormula
