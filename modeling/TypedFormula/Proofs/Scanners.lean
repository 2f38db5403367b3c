import TypedFormula.Proofs.NumberParts

namespace TypedFormula
namespace Lexeme

inductive Scanner : Char → (List Char → Lexeme) → Prop where
  | single {c kind} (is : single? c = some kind) : Scanner c fun cs => ⟨.ok kind,[c],cs⟩
  | bang : Scanner '!' (paired '!' '=' .not .notEqual)
  | bar : Scanner '|' (paired '|' '|' .bitOr .logicalOr)
  | ampersand : Scanner '&' (paired '&' '&' .bitAnd .logicalAnd)
  | comparison {c} (is : isComparison c = true) : Scanner c (ofComparison c)
  | text : Scanner '"' ofText
  | number {c} (digit : c.isDigit = true) : Scanner c fun cs => ofNumber (c :: cs)
  | name {c} (starts : startsName c = true) : Scanner c fun cs => ofName (c :: cs)
  | invalid {c} : Scanner c fun cs => ⟨.error (.invalidCharacter c),[c],cs⟩

theorem scanner (c : Char) : Scanner c (scan c) := by
  have same {scanner : List Char → Lexeme} (is : Scanner c scanner) (scans : ∀ cs, scan c cs = scanner cs) :
      Scanner c (scan c) := by
    rw [funext scans]
    exact is
  by_cases bang : c = '!'
  · subst bang; exact .bang
  by_cases bar : c = '|'
  · subst bar; exact .bar
  by_cases both : c = '&'
  · subst both; exact .ampersand
  by_cases quote : c = '"'
  · subst quote; exact .text
  cases single : single? c with
  | some kind => exact same (.single single) fun cs => by simp only [scan,single]
  | none =>
    by_cases comparison : isComparison c = true
    · exact same (.comparison comparison) fun cs => by simp [scan,single,bang,comparison]
    by_cases digit : c.isDigit = true
    · exact same (.number digit) fun cs => by simp [scan,single,bang,bar,both,quote,comparison,digit]
    by_cases starts : startsName c = true
    · exact same (.name starts) fun cs => by simp [scan,single,bang,bar,both,quote,comparison,digit,starts]
    · exact same .invalid fun cs => by simp [scan,single,bang,bar,both,quote,comparison,digit,starts]

theorem single_ok {c : Char} {kind : TokenKind} (is : single? c = some kind) : kind.payload? = none := by
  unfold single? at is
  split at is
  all_goals cases is
  all_goals rfl

theorem paired_kinds {c second : Char} {alone both kind : TokenKind} {cs : List Char}
    (is : (paired c second alone both cs).outcome = .ok kind) : kind = alone ∨ kind = both := by
  unfold paired at is
  split at is
  · cases is
    exact .inl rfl
  · split at is
    · cases is
      exact .inr rfl
    · cases is
      exact .inl rfl

theorem comparisonAlone_operator (c : Char) : (comparisonAlone c).payload? = none := by
  unfold comparisonAlone
  repeat' split
  all_goals rfl

theorem comparison_operator {c d : Char} {kind : TokenKind} (is : comparison? c d = some kind) :
    kind.payload? = none := by
  unfold comparison? at is
  split at is
  all_goals cases is
  all_goals rfl

theorem ofComparison_ok {c : Char} {cs : List Char} {kind : TokenKind}
    (is : (ofComparison c cs).outcome = .ok kind) : kind.payload? = none := by
  unfold ofComparison at is
  split at is
  · cases is
    exact comparisonAlone_operator c
  · split at is
    · dsimp only at is
      split at is
      · rename_i both
        cases is
        exact comparison_operator both
      · cases is
    · cases is
      exact comparisonAlone_operator c

theorem intKind_ok {body : List Char} {kind : TokenKind} (is : intKind body = .ok kind) : ∃ n, kind = .int n := by
  unfold intKind at is
  split at is <;> cases is
  exact ⟨_,rfl⟩

theorem decimalKind_ok {body : List Char} {kind : TokenKind} (is : decimalKind body = .ok kind) :
    ∃ d, kind = .decimal d := by
  unfold decimalKind at is
  split at is
  · cases is
  · dsimp only at is
    split at is <;> cases is
    exact ⟨_,rfl⟩

theorem floatingKind_ok {f : Binary.Format} {make : Nat → TokenKind} {body : List Char} {kind : TokenKind}
    (is : floatingKind f make body = .ok kind) : ∃ bits, kind = make bits := by
  unfold floatingKind at is
  split at is
  · cases is
  · split at is <;> cases is
    exact ⟨_,rfl⟩

theorem ofNumber_ok {cs : List Char} {kind : TokenKind} (is : (ofNumber cs).outcome = .ok kind) :
    (∃ n, kind = .int n) ∨ (∃ d, kind = .decimal d) ∨ (∃ x, kind = .float x) ∨ ∃ x, kind = .double x := by
  obtain ⟨_,_,_,_,parts⟩ := numberParts cs
  rw [parts.eq,ofParts_outcome] at is
  unfold numberKind at is
  split at is
  · exact .inr (.inl (decimalKind_ok is))
  split at is
  · obtain ⟨bits,rfl⟩ := floatingKind_ok is
    exact .inr (.inr (.inl ⟨_,rfl⟩))
  split at is
  · exact .inl (intKind_ok is)
  · obtain ⟨bits,rfl⟩ := floatingKind_ok is
    exact .inr (.inr (.inr ⟨_,rfl⟩))

theorem ofName_ok {cs : List Char} {kind : TokenKind} (is : (ofName cs).outcome = .ok kind) :
    (∃ b, kind = .bool b) ∨ ∃ spelling, kind = .name spelling := by
  simp only [ofName] at is
  split at is
  · cases is
  · split at is
    · cases is; exact .inl ⟨_,rfl⟩
    · split at is
      · cases is; exact .inl ⟨_,rfl⟩
      · cases is; exact .inr ⟨_,rfl⟩

end Lexeme
end TypedFormula
