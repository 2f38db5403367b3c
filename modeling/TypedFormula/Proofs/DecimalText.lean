import TypedFormula.Expr.Print
import TypedFormula.Proofs.NumberText

namespace TypedFormula.Decimal

theorem isExponentMark_of_isDigit {c : Char} (digit : c.isDigit = true) : isExponentMark c = false := by
  unfold isExponentMark
  rw [Bool.or_eq_false_iff]
  constructor <;> rw [decide_eq_false_iff_not] <;> rintro rfl <;> exact absurd digit (by decide)

-- The number that the printed form of a decimal denotes.
def shown (d : Decimal) : Decimal :=
  if fits : d.scale = 0 ∧ d.coefficient * 10 < bound then
    ⟨d.negative,d.coefficient * 10,1,fits.2,by decide⟩
  else d

def advance (n : Nat) (cs : List Char) : Nat := cs.foldl (fun n c => n * 10 + digitValue c) n

theorem le_advance (n : Nat) (cs : List Char) : n ≤ advance n cs := by
  induction cs generalizing n with
  | nil => exact Nat.le_refl n
  | cons c cs ih => exact Nat.le_trans (by omega) (ih (n * 10 + digitValue c))

theorem readDigits_whole (r : Reading) (before : r.pointSeen = false) (cs rest : List Char)
    (all : ∀ c ∈ cs, c.isDigit = true) (fits : advance r.coefficient cs < bound) :
    readDigits r (cs ++ rest) = readDigits
      ⟨advance r.coefficient cs,r.scale,false,r.digitSeen || !cs.isEmpty⟩ rest := by
  induction cs generalizing r with
  | nil =>
    obtain ⟨coefficient,scale,pointSeen,digitSeen⟩ := r
    cases before
    simp [advance]
  | cons c cs ih =>
    have small : r.coefficient * 10 + digitValue c < bound :=
      Nat.lt_of_le_of_lt (le_advance _ cs) fits
    rw [List.cons_append,readDigits,before]
    simp only [Bool.false_and,Bool.false_eq_true,if_false]
    rw [if_pos (all c List.mem_cons_self),if_pos small]
    rw [ih _ rfl (fun d present => all d (List.mem_cons_of_mem _ present)) fits]
    simp [advance]

theorem readDigits_fraction (r : Reading) (behind : r.pointSeen = true) (cs rest : List Char)
    (all : ∀ c ∈ cs, c.isDigit = true) (fits : advance r.coefficient cs < bound)
    (room : r.scale + cs.length ≤ maxScale) :
    readDigits r (cs ++ rest) = readDigits
      ⟨advance r.coefficient cs,r.scale + cs.length,true,r.digitSeen || !cs.isEmpty⟩ rest := by
  induction cs generalizing r with
  | nil =>
    obtain ⟨coefficient,scale,pointSeen,digitSeen⟩ := r
    cases behind
    simp [advance]
  | cons c cs ih =>
    have small : r.coefficient * 10 + digitValue c < bound :=
      Nat.lt_of_le_of_lt (le_advance _ cs) fits
    rw [List.length_cons] at room
    rw [List.cons_append,readDigits,behind]
    rw [if_neg (by simp; omega),if_pos (all c List.mem_cons_self),if_pos small]
    rw [ih _ rfl (fun d present => all d (List.mem_cons_of_mem _ present)) fits (by simp; omega)]
    rw [List.length_cons,show r.scale + (cs.length + 1) = r.scale + 1 + cs.length by omega]
    simp [advance]

variable {whole fraction : List Char}

theorem readDigits_pointed (form : IsPointed whole fraction)
    (fits : digitsValue (whole ++ fraction) < bound) (room : fraction.length ≤ maxScale) :
    readDigits {} (whole ++ '.' :: fraction) =
      .some (digitsValue (whole ++ fraction),fraction.length) := by
  have split : digitsValue (whole ++ fraction) = advance (advance 0 whole) fraction := by
    simp [digitsValue,advance]
  rw [split] at fits ⊢
  have small : advance 0 whole < bound := Nat.lt_of_le_of_lt (le_advance _ fraction) fits
  have seen : whole.isEmpty = false := by simpa using form.filled
  rw [readDigits_whole {} rfl whole _ form.isWhole small,readDigits]
  have point : ('.' : Char).isDigit = false := rfl
  simp only [Bool.false_and,Bool.false_eq_true,if_false,point,seen,Bool.not_false,Bool.and_self,
    decide_true,if_true,Bool.or_true]
  have behind := readDigits_fraction ⟨advance 0 whole,0,true,true⟩ rfl fraction [] form.isFraction fits
    (by simpa using room)
  rw [List.append_nil] at behind
  rw [behind,readDigits]
  simp

-- A number whose zero behind the point has no room.
theorem readDigits_full (some : whole ≠ []) (isWhole : ∀ c ∈ whole, c.isDigit = true)
    (fits : digitsValue whole < bound) (full : bound ≤ digitsValue whole * 10) :
    readDigits {} (whole ++ ['.','0']) = .some (digitsValue whole,0) := by
  have seen : whole.isEmpty = false := by simpa using some
  have point : ('.' : Char).isDigit = false := rfl
  have zero : ('0' : Char).isDigit = true := rfl
  have none : digitValue '0' = 0 := rfl
  rw [readDigits_whole {} rfl whole _ isWhole fits,readDigits]
  simp only [Bool.false_and,Bool.false_eq_true,if_false,point,seen,Bool.not_false,Bool.and_self,
    decide_true,if_true,Bool.or_true]
  rw [readDigits]
  dsimp only
  have unbounded : ¬ (advance 0 whole * 10 + 0 < bound) := by
    change bound ≤ advance 0 whole * 10 at full
    omega
  have room : ¬ (true && decide (0 = maxScale)) = true := by simp [maxScale]
  rw [if_neg room,if_pos zero,none,if_neg unbounded,if_pos rfl]
  have rounding : ∀ r : Reading, r.roundingDigit ['0'] = 0 := by
    intro r
    unfold Reading.roundingDigit
    cases r.isLong <;> rfl
  have onlyDigits : (['0'].all fun c => c.isDigit || c = '_') = true := rfl
  rw [Reading.finish,if_pos onlyDigits,Reading.rounded,rounding,if_pos (by decide)]
  rfl

theorem ofChars_of_readDigits {cs : List Char} {coefficient scale : Nat}
    (starts : ∃ c rest, cs = c :: rest ∧ c.isDigit = true)
    (plain : ∀ c ∈ cs, c.isDigit = true ∨ c = '.')
    (read : readDigits {} cs = .some (coefficient,scale)) (fits : coefficient < bound)
    (room : scale ≤ maxScale) : ofChars? cs = .some ⟨false,coefficient,scale,fits,room⟩ := by
  have unmarked : cs.dropWhile (fun c => !isExponentMark c) = [] := by
    rw [← List.append_nil cs]
    refine Text.dropWhile_run (fun c present => ?_) (by simp)
    rcases plain c present with digit | rfl
    · rw [isExponentMark_of_isDigit digit]
      rfl
    · rfl
  obtain ⟨c,rest,rfl,digit⟩ := starts
  unfold ofChars?
  rw [unmarked]
  dsimp only
  unfold readPlain
  split
  · rename_i same
    rw [(List.cons.inj same).1] at digit
    exact absurd digit (by decide)
  · rename_i same
    rw [(List.cons.inj same).1] at digit
    exact absurd digit (by decide)
  · rw [read]
    change ofParts? false coefficient scale = _
    unfold ofParts? ofSigned?
    rw [dif_pos ⟨fits,room⟩]
    rfl

theorem any_isExponentMark {cs : List Char} (plain : ∀ c ∈ cs, c.isDigit = true ∨ c = '.') :
    ¬ cs.any Lexeme.isExponentMark = true := by
  rw [List.any_eq_true]
  rintro ⟨c,present,marked⟩
  simp only [Lexeme.isExponentMark,Bool.or_eq_true,beq_iff_eq] at marked
  have digit := plain c present
  rcases marked with rfl | rfl <;> exact absurd digit (by decide)

theorem decimalKind_pointed (form : IsPointed whole fraction) {coefficient scale : Nat}
    (fits : coefficient < bound) (room : scale ≤ maxScale)
    (read : readDigits {} (whole ++ '.' :: fraction) = .some (coefficient,scale)) :
    Lexeme.decimalKind (whole ++ '.' :: fraction) =
      .ok (.decimal ⟨false,coefficient,scale,fits,room⟩) := by
  unfold Lexeme.decimalKind
  rw [if_neg (any_isExponentMark form.plain)]
  dsimp only
  rw [if_neg form.ends,ofChars_of_readDigits form.starts form.plain read fits room]

theorem printed_parts {d : Decimal} (unsigned : d.negative = false) : ∃ whole fraction,
    (Expr.numberText d.toText "m").toList = whole ++ '.' :: (fraction ++ ['m']) ∧
    IsPointed whole fraction ∧ Lexeme.decimalKind (whole ++ '.' :: fraction) = .ok (.decimal d.shown) := by
  obtain ⟨negative,coefficient,scale,fits,room⟩ := d
  cases unsigned
  have all : ∀ c ∈ Nat.toDigits 10 coefficient, c.isDigit = true := isDigit_toDigits
  have value := digitsValue_toDigits coefficient
  unfold toText toChars
  simp only [Bool.false_eq_true,if_false,List.nil_append]
  by_cases places : scale = 0
  · subst places
    have form := IsPointed.ofWhole Nat.toDigits_ne_nil all
    have tenfold : digitsValue (Nat.toDigits 10 coefficient ++ ['0']) = coefficient * 10 := by
      rw [digitsValue_append,value]
      rfl
    refine ⟨_,['0'],numberText_whole all "m",form,?_⟩
    unfold shown
    by_cases small : coefficient * 10 < bound
    · rw [dif_pos ⟨rfl,small⟩]
      refine decimalKind_pointed form _ _ ?_
      rw [readDigits_pointed form (by rw [tenfold]; exact small) (by decide),tenfold]
      rfl
    · rw [dif_neg (fun both => small both.2)]
      refine decimalKind_pointed form _ _ ?_
      rw [readDigits_full form.filled all (by rw [value]; exact fits) (by rw [value]; omega),value]
  · obtain ⟨whole,fraction,split,form,long,same⟩ := pointed_parts all places
    rw [value] at same
    rw [split]
    refine ⟨whole,fraction,numberText_pointed "m",form,?_⟩
    unfold shown
    rw [dif_neg (fun both => places both.1)]
    refine decimalKind_pointed form _ _ ?_
    rw [readDigits_pointed form (by rw [same]; exact fits) (by rw [long]; exact room),same,long]

theorem same_shown (d : Decimal) : d.same d.shown = true := by
  rw [same_iff]
  unfold shown
  split
  · rename_i fits
    rw [fits.1]
    unfold signed
    split <;> simp [tenPow,Int.neg_mul]
  · rfl

theorem shown_negative (d : Decimal) : d.shown.negative = d.negative := by
  unfold shown
  split <;> rfl

theorem text_shown {d : Decimal} (unsigned : d.negative = false) :
    Expr.numberText d.shown.toText "m" = Expr.numberText d.toText "m" := by
  by_cases small : d.scale = 0 ∧ d.coefficient * 10 < bound
  · obtain ⟨negative,coefficient,scale,fits,room⟩ := d
    cases unsigned
    cases small.1
    have digits : pointed (Nat.toDigits 10 (coefficient * 10)) 1 =
        Nat.toDigits 10 coefficient ++ ['.','0'] := by
      by_cases positive : 0 < coefficient
      · have longer := Nat.toDigits_append_toDigits (b := 10) (by decide) positive (d := 0) (by decide)
        rw [show coefficient * 10 = 10 * coefficient + 0 by omega,← longer,Nat.toDigits_zero]
        exact pointed_last Nat.toDigits_ne_nil '0'
      · cases Nat.eq_zero_of_not_pos positive
        rfl
    apply String.toList_injective
    unfold shown
    rw [dif_pos small]
    unfold toText toChars
    simp only [Bool.false_eq_true,if_false,List.nil_append]
    rw [digits,numberText_pointed,show pointed (Nat.toDigits 10 coefficient) 0 =
      Nat.toDigits 10 coefficient from rfl,numberText_whole isDigit_toDigits]
  · unfold shown
    rw [dif_neg small]

end TypedFormula.Decimal
