import TypedFormula.Proofs.CutLexemes

namespace TypedFormula

open Lexeme

-- Digits, then a point with any digits behind it or none, then an exponent mark likewise.
@[ext]
structure NumberBody where
  whole : List Char
  fraction : Option (List Char)
  exponent : Option (Char × List Char)
  filled : whole ≠ []
  isWhole : ∀ c ∈ whole, c.isDigit = true
  isFraction : ∀ digits ∈ fraction, ∀ c ∈ digits, c.isDigit = true
  isMark : ∀ marked ∈ exponent, isExponentMark marked.1 = true
  isExponent : ∀ marked ∈ exponent, ∀ c ∈ marked.2, c.isDigit = true

theorem Lexeme.mark_clear {c : Char} (mark : isExponentMark c = true) : c.isDigit = false ∧ c ≠ '.' := by
  simp only [isExponentMark,Bool.or_eq_true,beq_iff_eq] at mark
  rcases mark with rfl | rfl <;> decide

theorem Lexeme.splitPoint_digits {digits : List Char} (all : ∀ c ∈ digits, c.isDigit = true) (rest : List Char) :
    splitPoint ('.' :: (digits ++ rest)) =
      ('.' :: (digits ++ rest.takeWhile Char.isDigit),rest.dropWhile Char.isDigit) := by
  simp only [splitPoint,List.takeWhile_append_of_pos all,List.dropWhile_append_of_pos all]

theorem Lexeme.splitExponent_digits {c : Char} {digits : List Char} (mark : isExponentMark c = true)
    (all : ∀ c ∈ digits, c.isDigit = true) (rest : List Char) :
    splitExponent (c :: (digits ++ rest)) =
      (c :: (digits ++ rest.takeWhile Char.isDigit),rest.dropWhile Char.isDigit) := by
  simp only [splitExponent,mark,if_true,List.takeWhile_append_of_pos all,List.dropWhile_append_of_pos all]

namespace NumberBody

variable (body : NumberBody)

def point : List Char := body.fraction.elim [] ('.' :: ·)

def mark : List Char := body.exponent.elim [] fun marked => marked.1 :: marked.2

def chars : List Char := body.whole ++ body.point ++ body.mark

-- The body that a text leads with: no longer one is in front of it.
structure Leads (cs rest : List Char) : Prop where
  split : body.chars ++ rest = cs
  longest : ∀ other : NumberBody, other.chars <+: cs → other.chars.length ≤ body.chars.length

variable {body}

theorem ext_chars {other : NumberBody} (whole : body.whole = other.whole) (point : body.point = other.point)
    (mark : body.mark = other.mark) : body = other := by
  refine NumberBody.ext whole ?_ ?_
  · unfold NumberBody.point at point
    cases one : body.fraction <;> cases two : other.fraction <;> simp_all
  · unfold NumberBody.mark at mark
    cases one : body.exponent <;> cases two : other.exponent <;> simp_all [Prod.ext_iff]

-- The parts behind the whole digits do not start with a digit, and the mark with no point either.
theorem behind_stops : ∀ c, (body.point ++ body.mark).head? = some c → c.isDigit = false := by
  unfold point mark
  cases body.fraction with
  | some => rintro _ ⟨⟩; rfl
  | none =>
    cases same : body.exponent with
    | none => rintro _ ⟨⟩
    | some marked => rintro _ ⟨⟩; exact (mark_clear (body.isMark marked same)).1

theorem mark_stops : ∀ c, body.mark.head? = some c → c.isDigit = false ∧ c ≠ '.' := by
  unfold mark
  cases same : body.exponent with
  | none => rintro _ ⟨⟩
  | some marked => rintro _ ⟨⟩; exact mark_clear (body.isMark marked same)

theorem parts_self : NumberParts body.chars body.whole body.point body.mark [] := by
  unfold chars
  rw [List.append_assoc]
  refine ⟨(Text.takeWhile_run body.isWhole behind_stops).symm,?_,?_⟩
  · rw [Text.dropWhile_run body.isWhole behind_stops,List.append_nil]
    have stops := body.mark_stops
    unfold point
    cases same : body.fraction with
    | none => exact splitPoint_none fun c first => (stops c first).2
    | some digits =>
      have apart := fun c first => (stops c first).1
      simp only [Option.elim_some,List.cons_append,splitPoint,Text.takeWhile_run (body.isFraction digits same) apart,
        Text.dropWhile_run (body.isFraction digits same) apart]
  · rw [List.append_nil]
    unfold mark
    cases same : body.exponent with
    | none => rfl
    | some marked =>
      simpa using splitExponent_digits (body.isMark marked same) (body.isExponent marked same) []

-- What is split off at the front of a text is at least as long as any body there. The digits before a
-- point or a mark are the same ones, since neither is a digit.
theorem length_le_parts {rest whole point exponent behind : List Char}
    (parts : NumberParts (body.chars ++ rest) whole point exponent behind) :
    body.chars.length ≤ (whole ++ point ++ exponent).length := by
  obtain ⟨rfl,pointed,marked⟩ := parts
  have reached : ∀ m, body.exponent = some m → exponent ++ behind = m.1 :: (m.2 ++ rest) →
      m.2.length + 1 ≤ exponent.length := by
    intro m same whole
    rw [whole,splitExponent_digits (body.isMark m same) (body.isExponent m same)] at marked
    rw [← (Prod.mk.inj marked).1]
    simp
  have outside : ∀ (c : Char) (cs : List Char), c.isDigit = false → (c :: cs).takeWhile Char.isDigit = [] ∧
      (c :: cs).dropWhile Char.isDigit = c :: cs :=
    fun c cs clear => ⟨List.takeWhile_cons_of_neg (by simp [clear]),List.dropWhile_cons_of_neg (by simp [clear])⟩
  have all := body.isWhole
  unfold chars NumberBody.point NumberBody.mark at pointed ⊢
  simp only [List.append_assoc,List.takeWhile_append_of_pos all,List.dropWhile_append_of_pos all,
    List.length_append] at pointed ⊢
  cases fraction : body.fraction with
  | none =>
    cases exponent : body.exponent with
    | none =>
      simp only [Option.elim_none,List.length_nil]
      omega
    | some m =>
      obtain ⟨digit,noPoint⟩ := mark_clear (body.isMark m exponent)
      simp only [fraction,exponent,Option.elim_none,Option.elim_some,List.nil_append,List.cons_append,
        (outside m.1 _ digit).2] at pointed ⊢
      rw [splitPoint_none (by rintro _ ⟨⟩; exact noPoint)] at pointed
      have longer := reached m exponent (Prod.ext_iff.mp pointed).2.symm
      simp only [List.length_nil,List.length_cons]
      omega
  | some digits =>
    simp only [fraction,Option.elim_some,List.cons_append,(outside '.' _ rfl).2,
      splitPoint_digits (body.isFraction digits fraction)] at pointed ⊢
    obtain ⟨rfl,behindPoint⟩ := Prod.ext_iff.mp pointed
    cases exponent : body.exponent with
    | none =>
      simp only [Option.elim_none,List.length_nil,List.length_cons,List.length_append]
      omega
    | some m =>
      have digit := (mark_clear (body.isMark m exponent)).1
      simp only [exponent,Option.elim_some,List.cons_append,(outside m.1 _ digit).2] at behindPoint ⊢
      have longer := reached m exponent behindPoint.symm
      simp only [List.length_cons,List.length_append]
      omega

theorem of_parts {c : Char} {cs whole point exponent rest : List Char} (digit : c.isDigit = true)
    (parts : NumberParts (c :: cs) whole point exponent rest) :
    ∃ body : NumberBody, body.whole = whole ∧ body.point = point ∧ body.mark = exponent := by
  obtain ⟨rfl,pointed,marked⟩ := parts
  have filled : (c :: cs).takeWhile Char.isDigit ≠ [] := by
    rw [List.takeWhile_cons_of_pos digit]
    exact List.cons_ne_nil _ _
  have digits : ∀ (text : List Char), ∀ d ∈ text.takeWhile Char.isDigit, d.isDigit = true :=
    fun _ _ present => List.mem_takeWhile_imp present
  obtain ⟨fraction,isFraction,isPoint⟩ : ∃ fraction : Option (List Char),
      (∀ ds ∈ fraction, ∀ d ∈ ds, d.isDigit = true) ∧ fraction.elim [] ('.' :: ·) = point := by
    rw [← show (splitPoint _).1 = point from congrArg Prod.fst pointed]
    unfold splitPoint
    split
    · exact ⟨some _,by rintro _ ⟨⟩; exact digits _,rfl⟩
    · exact ⟨none,by rintro _ ⟨⟩,rfl⟩
  obtain ⟨marks,isMark,isExponent,isMarked⟩ : ∃ marks : Option (Char × List Char),
      (∀ m ∈ marks, isExponentMark m.1 = true) ∧ (∀ m ∈ marks, ∀ d ∈ m.2, d.isDigit = true) ∧
        marks.elim [] (fun m => m.1 :: m.2) = exponent := by
    rw [← show (splitExponent _).1 = exponent from congrArg Prod.fst marked]
    unfold splitExponent
    split
    · exact ⟨none,by rintro _ ⟨⟩,by rintro _ ⟨⟩,rfl⟩
    · split
      · rename_i d ds _ mark
        exact ⟨some (d,_),by rintro _ ⟨⟩; exact mark,by rintro _ ⟨⟩; exact digits _,rfl⟩
      · exact ⟨none,by rintro _ ⟨⟩,by rintro _ ⟨⟩,rfl⟩
  exact ⟨⟨_,fraction,marks,filled,digits _,isFraction,isMark,isExponent⟩,rfl,isPoint,isMarked⟩

theorem leads_unique {other : NumberBody} {cs rest behind : List Char} (one : body.Leads cs rest)
    (two : other.Leads cs behind) : body = other := by
  have same : body.chars = other.chars :=
    (List.prefix_of_prefix_length_le ⟨_,one.split⟩ ⟨_,two.split⟩ (two.longest body ⟨_,one.split⟩)).eq_of_length_le
      (one.longest other ⟨_,two.split⟩)
  have first := body.parts_self
  have second := other.parts_self
  rw [same] at first
  have whole : body.whole = other.whole := first.digits.trans second.digits.symm
  obtain ⟨point,marks⟩ := Prod.ext_iff.mp (first.pointed.symm.trans second.pointed)
  simp only [List.append_nil] at marks
  exact ext_chars whole point marks

theorem leads_of_parts {cs rest : List Char} (parts : NumberParts cs body.whole body.point body.mark rest) :
    body.Leads cs rest := by
  refine ⟨parts.split,?_⟩
  rintro other ⟨behind,split⟩
  rw [← split] at parts
  exact other.length_le_parts parts

theorem exists_leads {c : Char} (digit : c.isDigit = true) (cs : List Char) : ∃ (body : NumberBody) (rest : List Char),
    body.Leads (c :: cs) rest ∧ NumberParts (c :: cs) body.whole body.point body.mark rest := by
  obtain ⟨_,_,_,rest,parts⟩ := numberParts (c :: cs)
  obtain ⟨body,rfl,rfl,rfl⟩ := of_parts digit parts
  exact ⟨body,rest,leads_of_parts parts,parts⟩

theorem Leads.eq {c : Char} {cs rest : List Char} (leads : body.Leads (c :: cs) rest) (digit : c.isDigit = true) :
    ofNumber (c :: cs) = ofParts body.whole body.point body.mark rest := by
  obtain ⟨other,behind,same,parts⟩ := exists_leads digit cs
  cases leads_unique leads same
  rw [parts.eq,List.append_cancel_left (leads.split.trans same.split.symm)]

end NumberBody
end TypedFormula
