import TypedFormula.Proofs.DecimalText
import TypedFormula.Proofs.FloatOverflow
import TypedFormula.Proofs.NumberBodies

namespace TypedFormula.NumberBody

open Lexeme

variable (body : NumberBody)

def text : String := String.ofList body.chars

def fractionDigits : List Char := body.fraction.getD []

def exponentDigits : List Char := (body.exponent.map Prod.snd).getD []

def coefficient : Nat := digitsValue (body.whole ++ body.fractionDigits)

def places : Nat := body.fractionDigits.length

def power : Int := (digitsValue body.exponentDigits : Int) - body.places

def value : ℚ := body.coefficient * 10 ^ body.power

def Unfinished : Prop := ∃ c, body.exponent = some (c,[])

theorem starts : ∃ c cs, body.chars = c :: cs ∧ c.isDigit = true := by
  obtain ⟨c,cs,same⟩ := List.exists_cons_of_ne_nil body.filled
  refine ⟨c,cs ++ body.point ++ body.mark,by simp [chars,same],?_⟩
  exact body.isWhole c (by simp [same])

section Scientific

variable {body}

theorem splitFraction_behind :
    Binary.splitFraction (body.point ++ body.mark) = (body.fractionDigits,body.mark) := by
  have stops := body.mark_stops
  unfold point fractionDigits
  cases same : body.fraction with
  | none =>
    unfold Binary.splitFraction
    split
    · rename_i behind
      exact absurd rfl (stops '.' (by simpa using congrArg List.head? behind)).2
    · rfl
  | some digits =>
    have apart := fun c first => (stops c first).1
    simp only [Option.elim_some,List.cons_append,Binary.splitFraction,Option.getD_some,
      Text.takeWhile_run (body.isFraction digits same) apart,Text.dropWhile_run (body.isFraction digits same) apart]

theorem splitSign_digits {digits : List Char} (all : ∀ c ∈ digits, c.isDigit = true) :
    Binary.splitSign digits = (false,digits) := by
  unfold Binary.splitSign
  split
  · exact absurd (all '-' List.mem_cons_self) (by decide)
  · exact absurd (all '+' List.mem_cons_self) (by decide)
  · rfl

theorem readExponent_unfinished (unfinished : body.Unfinished) : Binary.readExponent body.mark = none := by
  obtain ⟨c,same⟩ := unfinished
  simp [mark,same,Binary.readExponent,Binary.splitSign]

theorem readExponent_finished (finished : ¬body.Unfinished) :
    Binary.readExponent body.mark = some (digitsValue body.exponentDigits : Int) := by
  unfold mark exponentDigits
  cases same : body.exponent with
  | none => rfl
  | some marked =>
    have all := body.isExponent marked same
    have filled : marked.2 ≠ [] := fun none => finished ⟨marked.1,by rw [same,← none]⟩
    have isMark := body.isMark marked same
    simp only [isExponentMark,Bool.or_eq_true,beq_iff_eq] at isMark
    simp only [Option.elim_some,Binary.readExponent,splitSign_digits all,if_pos isMark]
    rw [if_pos ⟨filled,List.all_eq_true.mpr all⟩]
    rfl

theorem readScientific_chars : Binary.readScientific body.chars =
    (Binary.readExponent body.mark).map fun e => ⟨body.coefficient,e - body.places⟩ := by
  have parts := body.parts_self
  have behind : body.chars.dropWhile Char.isDigit = body.point ++ body.mark := by
    unfold chars
    rw [List.append_assoc,Text.dropWhile_run body.isWhole body.behind_stops]
  unfold Binary.readScientific
  rw [← parts.digits,behind,splitFraction_behind]
  dsimp only
  rw [if_neg (fun none => body.filled none.1)]
  rfl

end Scientific

section Floating

variable (f : Binary.Format) (make : Nat → TokenKind)

def Floats (outcome : Except Cause TokenKind) : Prop :=
  (f.overflowPoint ≤ body.value → outcome = .error (.numberOverflow body.text)) ∧
    (body.value < f.overflowPoint → ∃ bits < f.infinityBits, outcome = .ok (make bits))

variable {body}

theorem readMagnitude_chars : f.readMagnitude body.chars =
    (Binary.readExponent body.mark).map fun e => f.ofScientific body.coefficient (e - body.places) := by
  obtain ⟨c,cs,same,digit⟩ := body.starts
  rw [same,readMagnitude_number c cs f digit,← same,readScientific_chars,Option.map_map]
  rfl

theorem floatingKind_unfinished (unfinished : body.Unfinished) :
    floatingKind f make body.chars = .error (.malformedNumber body.text) := by
  unfold floatingKind
  rw [readMagnitude_chars,readExponent_unfinished unfinished]
  rfl

theorem floatingKind_finished {f : Binary.Format} (moderate : f.Moderate) (wide : 4 ≤ twoPow f.exponentBits)
    (make : Nat → TokenKind) (finished : ¬body.Unfinished) : body.Floats f make (floatingKind f make body.chars) := by
  have overflow := Binary.ofScientific_overflow moderate wide body.coefficient body.power
  unfold floatingKind
  rw [readMagnitude_chars,readExponent_finished finished]
  constructor
  · intro reached
    exact if_pos (overflow.mpr reached)
  · intro below
    have finite := mt overflow.mp (not_le.mpr below)
    exact ⟨_,Nat.lt_of_le_of_ne (Binary.Format.ofScientific_le f _ _) finite,if_neg finite⟩

end Floating

section Decimals

variable {body}

theorem decimalKind_marked (marked : body.exponent ≠ none) :
    decimalKind body.chars = .error (.malformedNumber body.text) := by
  obtain ⟨m,same⟩ := Option.ne_none_iff_exists'.mp marked
  have present : body.chars.any isExponentMark = true := by
    simp [chars,mark,same,body.isMark m same]
  exact if_pos present

theorem chars_unmarked (unmarked : body.exponent = none) : body.chars = body.whole ++ body.point := by
  simp [chars,mark,unmarked]

theorem plain_chars (unmarked : body.exponent = none) : ∀ c ∈ body.chars, c.isDigit = true ∨ c = '.' := by
  intro c present
  rw [chars_unmarked unmarked] at present
  rcases List.mem_append.mp present with whole | behind
  · exact .inl (body.isWhole c whole)
  · unfold point at behind
    cases same : body.fraction with
    | none => simp [same] at behind
    | some digits =>
      simp only [same,Option.elim_some,List.mem_cons] at behind
      exact behind.symm.imp_left (body.isFraction digits same c)

theorem decimalKind_unmarked (unmarked : body.exponent = none) :
    decimalKind body.chars = .error (.numberOverflow body.text) ∨ ∃ d, decimalKind body.chars = .ok (.decimal d) := by
  unfold decimalKind
  rw [if_neg (Decimal.any_isExponentMark (plain_chars unmarked))]
  dsimp only
  split
  · exact .inr ⟨_,rfl⟩
  · exact .inl rfl

theorem decimalKind_whole (unmarked : body.exponent = none) (noPlaces : body.fractionDigits = [])
    (fits : body.coefficient < Decimal.bound) :
    decimalKind body.chars = .ok (.decimal ⟨false,body.coefficient,0,fits,by decide⟩) := by
  -- A point without digits behind it is dropped before the number is read.
  have taken : (if body.chars.getLast? = some '.' then body.chars.dropLast else body.chars) = body.whole := by
    rw [chars_unmarked unmarked]
    unfold point
    unfold fractionDigits at noPlaces
    cases same : body.fraction with
    | some digits =>
      rw [same] at noPlaces
      cases noPlaces
      simp
    | none =>
      obtain ⟨c,last⟩ := Option.ne_none_iff_exists'.mp (mt List.getLast?_eq_none_iff.mp body.filled)
      have digit := body.isWhole c (List.mem_of_getLast? last)
      have noPoint : c ≠ '.' := by
        rintro rfl
        cases digit
      simp [last,noPoint]
  have coefficient : body.coefficient = digitsValue body.whole := by
    rw [NumberBody.coefficient,noPlaces,List.append_nil]
  have read : Decimal.readDigits {} body.whole = some (body.coefficient,0) := by
    have whole := Decimal.readDigits_whole {} rfl body.whole [] body.isWhole
      (show digitsValue body.whole < Decimal.bound from coefficient ▸ fits)
    rw [List.append_nil] at whole
    rw [whole,coefficient]
    simp [Decimal.readDigits,body.filled,Decimal.advance,digitsValue]
  obtain ⟨c,cs,starts⟩ := List.exists_cons_of_ne_nil body.filled
  unfold decimalKind
  rw [if_neg (Decimal.any_isExponentMark (plain_chars unmarked))]
  dsimp only
  rw [taken,Decimal.ofChars_of_readDigits ⟨c,cs,starts,body.isWhole c (by simp [starts])⟩
    (fun c present => .inl (body.isWhole c present)) read fits (by decide)]

theorem decimalKind_exact (unmarked : body.exponent = none) (fits : body.coefficient < Decimal.bound)
    (room : body.places ≤ Decimal.maxScale) :
    decimalKind body.chars = .ok (.decimal ⟨false,body.coefficient,body.places,fits,room⟩) := by
  by_cases noPlaces : body.fractionDigits = []
  · have zero : body.places = 0 := by rw [places,noPlaces,List.length_nil]
    simpa only [zero] using decimalKind_whole unmarked noPlaces fits
  · obtain ⟨digits,same⟩ : ∃ digits, body.fraction = some digits := by
      cases same : body.fraction with
      | none => exact absurd (by simp [fractionDigits,same]) noPlaces
      | some digits => exact ⟨digits,rfl⟩
    have fraction : body.fractionDigits = digits := by simp [fractionDigits,same]
    have form : IsPointed body.whole digits :=
      ⟨body.filled,fraction ▸ noPlaces,body.isWhole,body.isFraction digits same⟩
    have chars : body.chars = body.whole ++ '.' :: digits := by
      rw [chars_unmarked unmarked,point,same,Option.elim_some]
    subst fraction
    rw [chars]
    exact Decimal.decimalKind_pointed form fits room (Decimal.readDigits_pointed form fits room)

end Decimals

theorem chars_plain (noPoint : body.fraction = none) (unmarked : body.exponent = none) :
    body.chars = body.whole ∧ digitsValue body.chars = body.coefficient := by
  have same : body.chars = body.whole := by simp [chars,point,mark,noPoint,unmarked]
  refine ⟨same,?_⟩
  simp [same,coefficient,fractionDigits,noPoint]

variable {body}

theorem intKind_small (noPoint : body.fraction = none) (unmarked : body.exponent = none)
    (small : body.coefficient ≤ maxInt) :
    ∃ n : Int32, intKind body.chars = .ok (.int n) ∧ n.toInt = body.coefficient := by
  have value := (body.chars_plain noPoint unmarked).2
  refine ⟨Int32.ofNat body.coefficient,?_,Int32.toInt_ofNat_of_lt (by unfold maxInt at small; omega)⟩
  unfold intKind
  rw [value,if_pos small]

theorem intKind_large (noPoint : body.fraction = none) (unmarked : body.exponent = none)
    (large : maxInt < body.coefficient) : intKind body.chars = .error (.numberOverflow body.text) := by
  have value := (body.chars_plain noPoint unmarked).2
  unfold intKind
  rw [value,if_neg (by omega)]
  rfl

end TypedFormula.NumberBody
