import TypedFormula.Proofs.FloatBits
import TypedFormula.Proofs.NearestFloats
import TypedFormula.Proofs.NumberText

namespace TypedFormula

namespace Binary

theorem readScientific_pointed {whole fraction : List Char} (form : IsPointed whole fraction) :
    readScientific (whole ++ '.' :: fraction) =
      some ⟨digitsValue (whole ++ fraction),-(fraction.length : Int)⟩ := by
  have point : ∀ c, ('.' :: fraction).head? = some c → c.isDigit = false := by
    rintro _ ⟨⟩
    rfl
  have behind := @Text.takeWhile_run Char.isDigit fraction [] form.isFraction (by simp)
  have none := @Text.dropWhile_run Char.isDigit fraction [] form.isFraction (by simp)
  rw [List.append_nil] at behind none
  have parts : splitFraction ('.' :: fraction) = (fraction,[]) := by
    change (fraction.takeWhile Char.isDigit,fraction.dropWhile Char.isDigit) = _
    rw [behind,none]
  unfold readScientific
  rw [Text.takeWhile_run form.isWhole point,Text.dropWhile_run form.isWhole point,parts]
  dsimp only
  rw [if_neg (fun both => form.filled both.1)]
  simp [readExponent]

theorem plain_reads (f : Format) (n : Scientific) {bits : Nat}
    (reads : f.ofScientific n.significand n.exponent = bits) (suffix : String) : ∃ whole fraction,
      (Expr.numberText (String.ofList (plainLayout.digits n)) suffix).toList =
        whole ++ '.' :: (fraction ++ suffix.toList) ∧
      IsPointed whole fraction ∧ f.readMagnitude (whole ++ '.' :: fraction) = some bits := by
  have all : ∀ c ∈ Nat.toDigits 10 n.significand, c.isDigit = true := isDigit_toDigits
  unfold Layout.digits
  dsimp only
  rw [show plainLayout.isPositional _ = true from rfl,if_pos rfl]
  split
  · rename_i up
    obtain ⟨k,same⟩ := Int.eq_ofNat_of_zero_le up
    rw [same,Int.toNat_natCast,show plainLayout.pointZero = false from rfl]
    have digits : ∀ c ∈ Nat.toDigits 10 n.significand ++ List.replicate k '0', c.isDigit = true := by
      intro c present
      rcases List.mem_append.mp present with digit | zero
      · exact all c digit
      · exact isDigit_zeros c zero
    simp only [Bool.false_eq_true,if_false,List.append_nil]
    have form : IsPointed (Nat.toDigits 10 n.significand ++ List.replicate k '0') ['0'] :=
      .ofWhole (by simp [Nat.toDigits_ne_nil]) digits
    refine ⟨_,['0'],numberText_whole digits suffix,form,?_⟩
    unfold Format.readMagnitude
    rw [readScientific_pointed form,← reads,same]
    dsimp only
    rw [digitsValue_append,digitsValue_split,digitsValue_toDigits,digitsValue_zeros,List.length_replicate]
    have shifted := ofScientific_shift f n.significand (k + 1) k
    rw [show (k : Int) - (k + 1 : Nat) = -(['0'].length : Int) by simp,pow_succ,← Nat.mul_assoc] at shifted
    rw [← shifted]
    rfl
  · rename_i down
    have places : (-n.exponent).toNat ≠ 0 := by omega
    obtain ⟨whole,fraction,split,form,long,value⟩ := pointed_parts all places
    rw [split]
    refine ⟨whole,fraction,numberText_pointed suffix,form,?_⟩
    unfold Format.readMagnitude
    rw [readScientific_pointed form,← reads,value,digitsValue_toDigits,long]
    dsimp only
    rw [show -((-n.exponent).toNat : Int) = n.exponent by omega]

end Binary

namespace Lexeme

variable {whole fraction : List Char} {f : Binary.Format}

theorem floatingKind_reads {make : Nat → TokenKind} {body : List Char} {bits : Nat}
    (finite : bits < f.infinityBits) (reads : f.readMagnitude body = some bits) :
    floatingKind f make body = .ok (make bits) := by
  unfold floatingKind
  rw [reads]
  exact if_neg finite.ne

theorem printed_parts (moderate : f.Moderate) {bits : Nat} (finite : bits < f.infinityBits)
    (make : Nat → TokenKind) (suffix : String) : ∃ whole fraction,
      (Expr.numberText (Binary.plainLayout.text f bits) suffix).toList =
        whole ++ '.' :: (fraction ++ suffix.toList) ∧
      IsPointed whole fraction ∧ floatingKind f make (whole ++ '.' :: fraction) = .ok (make bits) := by
  obtain ⟨significand,e,decoded,_⟩ := Binary.decode_finite f finite
  have reads := Binary.shortest_decode moderate Binary.plainLayout.tie finite decoded
  obtain ⟨whole,fraction,split,form,same⟩ := Binary.plain_reads f _ reads suffix
  unfold Binary.Layout.text
  rw [decoded]
  exact ⟨whole,fraction,split,form,floatingKind_reads finite same⟩

end Lexeme
end TypedFormula
