import TypedFormula.Proofs.NumberKinds

namespace TypedFormula

open Lexeme

namespace NumberBody

variable (body : NumberBody)

structure Plain (behind : Option Char) : Prop where
  noPoint : body.fraction = none
  unmarked : body.exponent = none
  noDecimal : behind ≠ some 'm'
  noFloat : behind ≠ some 'f'

-- A body that is no number: a mark without digits, or any mark in a decimal.
def Malformed (behind : Option Char) : Prop :=
  body.Unfinished ∨ body.exponent ≠ none ∧ behind = some 'm'

structure Classified (behind : Option Char) (outcome : Except Cause TokenKind) : Prop where
  int : body.Plain behind → body.coefficient ≤ 2147483647 →
    ∃ n : Int32, outcome = .ok (.int n) ∧ n.toInt = body.coefficient
  intOverflow : body.Plain behind → 2147483647 < body.coefficient → outcome = .error (.numberOverflow body.text)
  malformed : ¬body.Plain behind → (outcome = .error (.malformedNumber body.text) ↔ body.Malformed behind)
  decimal : ¬body.Malformed behind → behind = some 'm' →
    outcome = .error (.numberOverflow body.text) ∨ ∃ d, outcome = .ok (.decimal d)
  exact : ¬body.Malformed behind → behind = some 'm' → body.places ≤ 28 → body.coefficient < 2 ^ 96 →
    ∃ d, outcome = .ok (.decimal d) ∧ d.negative = false ∧ d.coefficient = body.coefficient ∧ d.scale = body.places
  float : ¬body.Malformed behind → behind = some 'f' → body.Floats Binary.binary32 (.float ∘ floatOf) outcome
  double : ¬body.Malformed behind → ¬body.Plain behind → behind ≠ some 'm' → behind ≠ some 'f' →
    body.Floats Binary.binary64 (.double ∘ doubleOf) outcome

def kind (behind : Option Char) : Except Cause TokenKind :=
  numberKind body.whole body.point body.mark (numberSuffix behind)

variable {body} {behind : Option Char}

theorem plain_iff : body.Plain behind ↔
    (body.point = [] ∧ body.mark = []) ∧ behind ≠ some 'm' ∧ behind ≠ some 'f' := by
  have point : body.point = [] ↔ body.fraction = none := by
    unfold NumberBody.point
    cases body.fraction <;> simp
  have mark : body.mark = [] ↔ body.exponent = none := by
    unfold NumberBody.mark
    cases body.exponent <;> simp
  rw [point,mark]
  exact ⟨fun plain => ⟨⟨plain.1,plain.2⟩,plain.3,plain.4⟩,fun all => ⟨all.1.1,all.1.2,all.2.1,all.2.2⟩⟩

theorem exponent_of_unfinished (unfinished : body.Unfinished) : body.exponent ≠ none := by
  obtain ⟨c,same⟩ := unfinished
  simp [same]

theorem malformed_decimal : body.Malformed (some 'm') ↔ body.exponent ≠ none :=
  ⟨fun malformed => malformed.elim exponent_of_unfinished And.left,fun marked => .inr ⟨marked,rfl⟩⟩

theorem malformed_other (other : behind ≠ some 'm') : body.Malformed behind ↔ body.Unfinished :=
  ⟨fun malformed => malformed.resolve_right fun both => other both.2,.inl⟩

theorem kind_decimal : body.Classified (some 'm') (decimalKind body.chars) where
  int plain := absurd rfl plain.noDecimal
  intOverflow plain := absurd rfl plain.noDecimal
  malformed _ := by
    rw [malformed_decimal]
    constructor
    · intro malformed unmarked
      rcases decimalKind_unmarked unmarked with large | ⟨d,made⟩
      · cases large.symm.trans malformed
      · cases made.symm.trans malformed
    · exact decimalKind_marked
  decimal formed _ := decimalKind_unmarked (not_not.mp (mt malformed_decimal.mpr formed))
  exact formed _ room fits := by
    have unmarked := not_not.mp (mt malformed_decimal.mpr formed)
    exact ⟨_,decimalKind_exact unmarked fits room,rfl,rfl,rfl⟩
  float _ other := by cases other
  double _ _ other := absurd rfl other

theorem floats_not_malformed {f : Binary.Format} {make : Nat → TokenKind} {outcome : Except Cause TokenKind}
    (floats : body.Floats f make outcome) : outcome ≠ .error (.malformedNumber body.text) := by
  rcases le_or_gt f.overflowPoint body.value with large | small
  · rw [floats.1 large]
    rintro ⟨⟩
  · obtain ⟨bits,_,made⟩ := floats.2 small
    rw [made]
    rintro ⟨⟩

theorem floats_binary32 (finished : ¬body.Unfinished) : body.Floats Binary.binary32 (.float ∘ floatOf)
    (floatingKind Binary.binary32 (.float ∘ floatOf) body.chars) :=
  floatingKind_finished Binary.moderate_binary32 (by decide) _ finished

theorem floats_binary64 (finished : ¬body.Unfinished) : body.Floats Binary.binary64 (.double ∘ doubleOf)
    (floatingKind Binary.binary64 (.double ∘ doubleOf) body.chars) :=
  floatingKind_finished Binary.moderate_binary64 (by decide) _ finished

theorem kind_float : body.Classified (some 'f') (floatingKind Binary.binary32 (.float ∘ floatOf) body.chars) where
  int plain := absurd rfl plain.noFloat
  intOverflow plain := absurd rfl plain.noFloat
  malformed _ := by
    rw [malformed_other (by decide)]
    exact ⟨fun malformed => by_contra fun finished => floats_not_malformed (floats_binary32 finished) malformed,
      floatingKind_unfinished _ _⟩
  decimal _ other := by cases other
  exact _ other := by cases other
  float formed _ := floats_binary32 (mt .inl formed)
  double _ _ _ other := absurd rfl other

theorem kind_double (noDecimal : behind ≠ some 'm') (noFloat : behind ≠ some 'f') (broken : ¬body.Plain behind) :
    body.Classified behind (floatingKind Binary.binary64 (.double ∘ doubleOf) body.chars) where
  int plain := absurd plain broken
  intOverflow plain := absurd plain broken
  malformed _ := by
    rw [malformed_other noDecimal]
    exact ⟨fun malformed => by_contra fun finished => floats_not_malformed (floats_binary64 finished) malformed,
      floatingKind_unfinished _ _⟩
  decimal _ other := absurd other noDecimal
  exact _ other := absurd other noDecimal
  float _ other := absurd other noFloat
  double formed _ _ _ := floats_binary64 (mt .inl formed)

theorem kind_int (plain : body.Plain behind) : body.Classified behind (intKind body.chars) where
  int _ := intKind_small plain.noPoint plain.unmarked
  intOverflow _ := intKind_large plain.noPoint plain.unmarked
  malformed broken := absurd plain broken
  decimal _ other := absurd other plain.noDecimal
  exact _ other := absurd other plain.noDecimal
  float _ other := absurd other plain.noFloat
  double _ broken := absurd plain broken

theorem kind_classified (body : NumberBody) (behind : Option Char) : body.Classified behind (body.kind behind) := by
  have chars : body.whole ++ body.point ++ body.mark = body.chars := rfl
  unfold kind numberKind
  rw [chars]
  by_cases decimal : behind = some 'm'
  · subst decimal
    exact kind_decimal
  by_cases float : behind = some 'f'
  · subst float
    exact kind_float
  · have suffix : numberSuffix behind = [] := if_neg (not_or.mpr ⟨decimal,float⟩)
    simp only [suffix,reduceCtorEq,if_false]
    split
    next whole => exact kind_int (plain_iff.mpr ⟨whole,decimal,float⟩)
    next broken => exact kind_double decimal float fun plain => broken (plain_iff.mp plain).1

end NumberBody

namespace Lexer

variable {lx : Lexer} {c : Char} {cs : List Char}

-- Where a lexer gets from a number in front of a rest, and what it gives. A number ends with its suffix, a
-- fault with the body.
def afterNumber (lx : Lexer) (body : NumberBody) (rest : List Char) :
    Except Cause TokenKind → Except Fault Token × Lexer
  | .ok kind =>
    let suffix := numberSuffix rest.head?
    let span : Span := ⟨lx.position,lx.position + Text.byteLength (body.chars ++ suffix)⟩
    (.ok ⟨kind,span⟩,{ lx with
      rest := rest.drop suffix.length, position := span.stop, start := span.start, current := ⟨kind,span⟩ })
  | .error cause =>
    let span : Span := ⟨lx.position,lx.position + Text.byteLength body.chars⟩
    (.error ⟨cause,span⟩,{ lx with rest := rest, position := span.stop, start := span.start })

theorem next_number (digit : c.isDigit = true) (here : lx.rest = c :: cs) {body : NumberBody} {rest : List Char}
    (leads : body.Leads lx.rest rest) : lx.next = lx.afterNumber body rest (body.kind rest.head?) := by
  have visible := isBlank_of_isDigit digit
  have skipped : lx.rest.dropWhile Text.isBlank = c :: cs := by
    rw [here,List.dropWhile_cons_of_neg (by simp [visible])]
  have nothing : lx.rest.takeWhile Text.isBlank = [] := by
    rw [here,List.takeWhile_cons_of_neg (by simp [visible])]
  rw [here] at leads
  unfold next
  rw [skipped,nothing]
  dsimp only
  rw [scan_number digit,leads.eq digit,ofParts_kind]
  unfold NumberBody.kind
  cases numberKind body.whole body.point body.mark (numberSuffix rest.head?) <;> rfl

-- Every number is read by its longest body, which is the only one, and classified by that body and the
-- character behind it.
theorem number_classified (digit : c.isDigit = true) (here : lx.rest = c :: cs) :
    (∃! body : NumberBody, ∃ rest, body.Leads lx.rest rest) ∧
      ∀ (body : NumberBody) (rest : List Char), body.Leads lx.rest rest →
        ∃ outcome, body.Classified rest.head? outcome ∧ lx.next = lx.afterNumber body rest outcome := by
  constructor
  · obtain ⟨body,rest,leads,_⟩ := NumberBody.exists_leads digit cs
    rw [← here] at leads
    refine ⟨body,⟨rest,leads⟩,?_⟩
    rintro other ⟨behind,same⟩
    exact NumberBody.leads_unique same leads
  · intro body rest leads
    exact ⟨_,body.kind_classified rest.head?,next_number digit here leads⟩

-- A number without a point that is past the range of its suffix. The suffix is left over.
theorem number_past_range : '1'.isDigit = true ∧ (ofSource "1e39f").rest = ['1','e','3','9','f'] ∧
    (ofSource "1e39f").next.1 = .error ⟨.numberOverflow "1e39",⟨0,4⟩⟩ ∧
    (ofSource "1e39f").next.2.rest = ['f'] := by
  have digit : '1'.isDigit = true := rfl
  have here : (ofSource "1e39f").rest = ['1','e','3','9','f'] := rfl
  let body : NumberBody := ⟨['1'],none,some ('e',['3','9']),by simp,by simp,by simp,by simp [isExponentMark],by simp⟩
  have leads : body.Leads (ofSource "1e39f").rest ['f'] := NumberBody.leads_of_parts ⟨rfl,rfl,rfl⟩
  obtain ⟨outcome,classified,reached⟩ := (number_classified digit here).2 body ['f'] leads
  have large : Binary.binary32.overflowPoint ≤ body.value := by
    have value : body.value = 1 * 10 ^ (39 : ℤ) := rfl
    rw [Binary.overflowPoint_binary32,value]
    norm_num
  have formed : ¬body.Malformed (some 'f') := by
    rw [NumberBody.malformed_other (by decide)]
    rintro ⟨_,⟨⟩⟩
  have past := (classified.float formed rfl).1 large
  subst past
  exact ⟨digit,here,congrArg Prod.fst reached,congrArg (·.2.rest) reached⟩

end Lexer
end TypedFormula
