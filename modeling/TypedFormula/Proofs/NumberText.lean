import Mathlib.Algebra.Group.Nat.Defs
import TypedFormula.Expr.Print
import TypedFormula.Proofs.Spellings

namespace TypedFormula

theorem digitsValue_eq (cs : List Char) : digitsValue cs = Nat.ofDigitChars 10 cs 0 := by
  unfold digitsValue Nat.ofDigitChars
  refine congrArg (fun f => cs.foldl f 0) ?_
  funext n c
  rw [Nat.mul_comm]
  rfl

theorem digitsValue_split (xs ys : List Char) :
    digitsValue (xs ++ ys) = digitsValue xs * 10 ^ ys.length + digitsValue ys := by
  rw [digitsValue_eq,digitsValue_eq,digitsValue_eq,Nat.ofDigitChars_append,
    Nat.ofDigitChars_eq_ofDigitChars_zero,Nat.mul_comm]

theorem digitsValue_toDigits (n : Nat) : digitsValue (Nat.toDigits 10 n) = n := by
  rw [digitsValue_eq,Nat.ofDigitChars_ten_toDigits]

theorem digitsValue_zeros (n : Nat) : digitsValue (List.replicate n '0') = 0 := by
  rw [digitsValue_eq,Nat.ofDigitChars_replicate_zero,Nat.mul_zero]

theorem isDigit_toDigits {n : Nat} : ∀ c ∈ Nat.toDigits 10 n, c.isDigit = true :=
  fun _ present => Nat.isDigit_of_mem_toDigits (by decide) (by decide) present

theorem isDigit_zeros {n : Nat} : ∀ c ∈ List.replicate n '0', c.isDigit = true := by
  intro c present
  rw [List.eq_of_mem_replicate present]
  rfl

-- The digits of a printed number around its point. There is one at least on either side.
structure IsPointed (whole fraction : List Char) : Prop where
  filled : whole ≠ []
  fractional : fraction ≠ []
  isWhole : ∀ c ∈ whole, c.isDigit = true
  isFraction : ∀ c ∈ fraction, c.isDigit = true

namespace IsPointed

variable {whole fraction : List Char}

theorem plain (form : IsPointed whole fraction) :
    ∀ c ∈ whole ++ '.' :: fraction, c.isDigit = true ∨ c = '.' := by
  intro c present
  rcases List.mem_append.mp present with before | behind
  · exact .inl (form.isWhole c before)
  · rcases List.mem_cons.mp behind with point | behind
    · exact .inr point
    · exact .inl (form.isFraction c behind)

theorem starts (form : IsPointed whole fraction) :
    ∃ c rest, whole ++ '.' :: fraction = c :: rest ∧ c.isDigit = true := by
  obtain ⟨c,rest,rfl⟩ := List.exists_cons_of_ne_nil form.filled
  exact ⟨c,_,rfl,form.isWhole c List.mem_cons_self⟩

theorem ends (form : IsPointed whole fraction) : (whole ++ '.' :: fraction).getLast? ≠ some '.' := by
  rcases List.eq_nil_or_concat fraction with none | ⟨init,c,rfl⟩
  · exact absurd none form.fractional
  · intro point
    rw [List.concat_eq_append,← List.cons_append,← List.append_assoc,List.getLast?_concat] at point
    have digit := form.isFraction c (by simp)
    rw [Option.some.inj point] at digit
    exact absurd digit (by decide)

theorem ofWhole (filled : whole ≠ []) (isWhole : ∀ c ∈ whole, c.isDigit = true) : IsPointed whole ['0'] :=
  ⟨filled,List.cons_ne_nil _ _,isWhole,by simp⟩

end IsPointed

theorem pointed_parts {digits : List Char} {places : Nat} (all : ∀ c ∈ digits, c.isDigit = true)
    (some : places ≠ 0) : ∃ whole fraction, pointed digits places = whole ++ '.' :: fraction ∧
      IsPointed whole fraction ∧ fraction.length = places ∧
      digitsValue (whole ++ fraction) = digitsValue digits := by
  unfold pointed
  rw [if_neg some]
  generalize zeros : List.replicate (places + 1 - digits.length) '0' = pad
  have padDigits : ∀ c ∈ pad, c.isDigit = true := by rw [← zeros]; exact isDigit_zeros
  have long : places < (pad ++ digits).length := by
    rw [← zeros,List.length_append,List.length_replicate]
    omega
  have every : ∀ c ∈ pad ++ digits, c.isDigit = true := by
    intro c present
    rcases List.mem_append.mp present with inPad | inDigits
    · exact padDigits c inPad
    · exact all c inDigits
  refine ⟨(pad ++ digits).take ((pad ++ digits).length - places),
    (pad ++ digits).drop ((pad ++ digits).length - places),rfl,⟨?_,?_,?_,?_⟩,?_,?_⟩
  · intro none
    have length := congrArg List.length none
    rw [List.length_take,List.length_nil] at length
    omega
  · intro none
    have length := congrArg List.length none
    rw [List.length_drop,List.length_nil] at length
    omega
  · exact fun c present => every c (List.mem_of_mem_take present)
  · exact fun c present => every c (List.mem_of_mem_drop present)
  · rw [List.length_drop]
    omega
  · rw [List.take_append_drop,digitsValue_split,← zeros,digitsValue_zeros,Nat.zero_mul,Nat.zero_add]

theorem pointed_last {digits : List Char} (filled : digits ≠ []) (c : Char) :
    pointed (digits ++ [c]) 1 = digits ++ ['.',c] := by
  have long := List.length_pos_iff.mpr filled
  have unpadded : 1 + 1 - (digits ++ [c]).length = 0 := by
    rw [List.length_append,List.length_singleton]
    omega
  unfold pointed
  rw [if_neg Nat.one_ne_zero,unpadded]
  simp

theorem numberText_whole {digits : List Char} (all : ∀ c ∈ digits, c.isDigit = true) (suffix : String) :
    (Expr.numberText (String.ofList digits) suffix).toList = digits ++ '.' :: (['0'] ++ suffix.toList) := by
  have plain : ¬ (digits.any fun c => c == '.' || c == 'e' || c == 'E') = true := by
    rw [List.any_eq_true]
    rintro ⟨c,present,marked⟩
    have digit := all c present
    simp only [Bool.or_eq_true,beq_iff_eq] at marked
    rcases marked with (rfl | rfl) | rfl <;> exact absurd digit (by decide)
  unfold Expr.numberText
  rw [String.toList_ofList,if_neg plain]
  simp

theorem numberText_pointed {whole fraction : List Char} (suffix : String) :
    (Expr.numberText (String.ofList (whole ++ '.' :: fraction)) suffix).toList =
      whole ++ '.' :: (fraction ++ suffix.toList) := by
  have point : ((whole ++ '.' :: fraction).any fun c => c == '.' || c == 'e' || c == 'E') = true := by
    rw [List.any_eq_true]
    exact ⟨'.',by simp,rfl⟩
  unfold Expr.numberText
  rw [String.toList_ofList,if_pos point]
  simp

namespace Lexeme

def endsNumber (c : Char) : Bool :=
  !(c.isDigit || c == '.' || isExponentMark c || c == 'm' || c == 'f')

theorem endsNumber_clear {c : Char} (ends : endsNumber c = true) :
    c.isDigit = false ∧ c ≠ '.' ∧ isExponentMark c = false ∧ c ≠ 'm' ∧ c ≠ 'f' := by
  simp only [endsNumber,Bool.not_eq_true',Bool.or_eq_false_iff,beq_eq_false_iff_ne] at ends
  exact ⟨ends.1.1.1.1,ends.1.1.1.2,ends.1.1.2,ends.1.2,ends.2⟩

variable {digits whole fraction rest : List Char}

theorem splitExponent_none (stops : ∀ c, rest.head? = some c → isExponentMark c = false) :
    splitExponent rest = ([],rest) := by
  cases rest with
  | nil => rfl
  | cons c cs => rw [splitExponent,if_neg (by rw [stops c rfl]; simp)]

theorem splitPoint_none (stops : ∀ c, rest.head? = some c → c ≠ '.') : splitPoint rest = ([],rest) := by
  unfold splitPoint
  split
  · exact absurd rfl (stops '.' rfl)
  · rfl

theorem whole_parts (all : ∀ c ∈ digits, c.isDigit = true)
    (stops : ∀ c, rest.head? = some c → c.isDigit = false ∧ c ≠ '.' ∧ isExponentMark c = false) :
    NumberParts (digits ++ rest) digits [] [] rest := by
  refine ⟨(Text.takeWhile_run all fun c first => (stops c first).1).symm,?_,?_⟩
  · rw [Text.dropWhile_run all fun c first => (stops c first).1]
    exact splitPoint_none fun c first => (stops c first).2.1
  · exact splitExponent_none fun c first => (stops c first).2.2

theorem ofNumber_whole (all : ∀ c ∈ digits, c.isDigit = true)
    (stops : ∀ c, rest.head? = some c → endsNumber c = true) :
    ofNumber (digits ++ rest) = ⟨intKind digits,digits,rest⟩ := by
  have clear := fun c first => endsNumber_clear (stops c first)
  have parts := whole_parts all fun c first => ⟨(clear c first).1,(clear c first).2.1,(clear c first).2.2.1⟩
  rw [parts.eq,ofParts_kind,numberSuffix_none fun c first => (clear c first).2.2.2]
  simp only [numberKind,List.append_nil]
  cases intKind digits <;> rfl

theorem point_parts (form : IsPointed whole fraction)
    (stops : ∀ c, rest.head? = some c → c.isDigit = false ∧ isExponentMark c = false) :
    NumberParts (whole ++ '.' :: (fraction ++ rest)) whole ('.' :: fraction) [] rest := by
  have point : ∀ c, ('.' :: (fraction ++ rest)).head? = some c → c.isDigit = false := by
    rintro _ ⟨⟩
    rfl
  refine ⟨(Text.takeWhile_run form.isWhole point).symm,?_,splitExponent_none fun c first => (stops c first).2⟩
  rw [Text.dropWhile_run form.isWhole point]
  change ('.' :: (fraction ++ rest).takeWhile Char.isDigit,(fraction ++ rest).dropWhile Char.isDigit) = _
  rw [Text.takeWhile_run form.isFraction fun c first => (stops c first).1,
    Text.dropWhile_run form.isFraction fun c first => (stops c first).1]
  rfl

theorem ofNumber_decimal (form : IsPointed whole fraction) {kind : TokenKind}
    (is : decimalKind (whole ++ '.' :: fraction) = .ok kind) :
    ofNumber (whole ++ '.' :: (fraction ++ 'm' :: rest)) =
      ⟨.ok kind,whole ++ '.' :: fraction ++ ['m'],rest⟩ := by
  have parts : NumberParts (whole ++ '.' :: (fraction ++ 'm' :: rest)) whole ('.' :: fraction) [] ('m' :: rest) :=
    point_parts form (by rintro _ ⟨⟩; exact ⟨rfl,rfl⟩)
  have suffix : numberSuffix ('m' :: rest).head? = ['m'] := rfl
  rw [parts.eq,ofParts_kind,suffix]
  simp [numberKind,is]

theorem ofNumber_float (form : IsPointed whole fraction) {kind : TokenKind}
    (is : floatingKind Binary.binary32 (.float ∘ floatOf) (whole ++ '.' :: fraction) = .ok kind) :
    ofNumber (whole ++ '.' :: (fraction ++ 'f' :: rest)) =
      ⟨.ok kind,whole ++ '.' :: fraction ++ ['f'],rest⟩ := by
  have parts : NumberParts (whole ++ '.' :: (fraction ++ 'f' :: rest)) whole ('.' :: fraction) [] ('f' :: rest) :=
    point_parts form (by rintro _ ⟨⟩; exact ⟨rfl,rfl⟩)
  have suffix : numberSuffix ('f' :: rest).head? = ['f'] := rfl
  rw [parts.eq,ofParts_kind,suffix]
  simp [numberKind,is]

theorem ofNumber_double (form : IsPointed whole fraction)
    (stops : ∀ c, rest.head? = some c → endsNumber c = true) {kind : TokenKind}
    (is : floatingKind Binary.binary64 (.double ∘ doubleOf) (whole ++ '.' :: fraction) = .ok kind) :
    ofNumber (whole ++ '.' :: (fraction ++ rest)) = ⟨.ok kind,whole ++ '.' :: fraction,rest⟩ := by
  have clear := fun c first => endsNumber_clear (stops c first)
  have parts := point_parts form fun c first => ⟨(clear c first).1,(clear c first).2.2.1⟩
  rw [parts.eq,ofParts_kind,numberSuffix_none fun c first => (clear c first).2.2.2]
  simp [numberKind,is]

end Lexeme
end TypedFormula
