import Mathlib.Data.List.TakeWhile
import TypedFormula.Proofs.Cutting
import TypedFormula.Proofs.Scanners

namespace TypedFormula

namespace Text

-- A text that could stand in place of another as far as its first character goes, if it has one.
def StartsAs (other rest : List Char) : Prop := ∀ c, other.head? = some c → rest.head? = some c

theorem startsAs_nil (rest : List Char) : StartsAs [] rest := fun _ none => by cases none

theorem startsAs_append (front rest : List Char) : StartsAs front (front ++ rest) := by
  cases front with
  | nil => exact startsAs_nil rest
  | cons => exact fun _ same => same

-- A text that takes nothing from what is in front of another one when it stands there instead: it is empty,
-- starts like the other or starts with a blank.
def Follows (rest other : List Char) : Prop :=
  ∀ c, other.head? = some c → rest.head? = some c ∨ isBlank c = true

theorem StartsAs.follows {other rest : List Char} (alike : StartsAs other rest) : Follows rest other :=
  fun c first => .inl (alike c first)

theorem follows_self (rest : List Char) : Follows rest rest := fun _ first => .inl first

theorem Follows.behind {rest other : List Char} (follows : Follows rest other) (front : List Char) :
    Follows (front ++ rest) (front ++ other) := by
  cases front with
  | nil => exact follows
  | cons => exact fun _ same => .inl same

theorem Follows.stops {rest other : List Char} {p : Char → Prop} (follows : Follows rest other)
    (stops : ∀ c, rest.head? = some c → p c) (blank : ∀ c, isBlank c = true → p c) :
    ∀ c, other.head? = some c → p c := fun c first => (follows c first).elim (stops c) (blank c)

theorem isDigit_of_isBlank {c : Char} (blank : isBlank c = true) : c.isDigit = false := by
  cases digit : c.isDigit with
  | false => rfl
  | true => cases blank.symm.trans (Lexeme.isBlank_of_isDigit digit)

variable {p : Char → Bool} {cs other : List Char}

theorem takeWhile_again (blank : ∀ c, isBlank c = true → p c = false) (follows : Follows (cs.dropWhile p) other) :
    (cs.takeWhile p ++ other).takeWhile p = cs.takeWhile p ∧
      (cs.takeWhile p ++ other).dropWhile p = other := by
  have all : ∀ c ∈ cs.takeWhile p, p c = true := fun c present => List.mem_takeWhile_imp present
  have fails : ∀ c, (cs.dropWhile p).head? = some c → p c = false := by
    intro c first
    have fails := List.head?_dropWhile_not p cs
    rw [first] at fails
    exact fails
  have stop := follows.stops fails blank
  exact ⟨takeWhile_run all stop,dropWhile_run all stop⟩

theorem isNumeral_of_isBlank {c : Char} (blank : isBlank c = true) : isNumeral c = false := by
  have apart : ∀ b ∈ blankRanges, ∀ n ∈ numeralRanges, b.2 < n.1 ∨ n.2 < b.1 := by decide +kernel
  rw [Bool.eq_false_iff]
  intro numeral
  have side := toNat_of_isBlank blank
  unfold isNumeral at numeral
  split at numeral
  · have digit := toNat_of_isDigit numeral
    omega
  · obtain ⟨b,isBlank,_,_⟩ := (CodeRanges.contains_iff _ _).mp blank
    obtain ⟨n,isNumeral,_,_⟩ := (CodeRanges.contains_iff _ _).mp numeral
    have none := apart b isBlank n isNumeral
    omega

end Text

namespace Lexeme

open Text

theorem isBlank_of_continuesName {c : Char} (continues : continuesName c = true) : isBlank c = false := by
  rw [Bool.eq_false_iff]
  intro blank
  simp only [continuesName,isLetter_of_isBlank blank,isNumeral_of_isBlank blank,Bool.false_or,Bool.or_eq_true,
    beq_iff_eq] at continues
  rcases continues with rfl | rfl <;> exact absurd blank (by decide)

theorem continuesName_of_isBlank {c : Char} (blank : isBlank c = true) : continuesName c = false := by
  cases continues : continuesName c with
  | false => rfl
  | true => cases blank.symm.trans (isBlank_of_continuesName continues)

structure Firm (scanner : List Char → Lexeme) (lexeme : Lexeme) : Prop where
  again : ∀ other, StartsAs other lexeme.rest →
    scanner (lexeme.chars.tail ++ other) = { lexeme with rest := other }
  visible : ∀ c, lexeme.chars.getLast? = some c → isBlank c = false
  named : ∀ spelling, lexeme.outcome = .ok (.name spelling) → lexeme.chars = spelling.toList

variable {c : Char} {cs other : List Char} {kind : TokenKind}

theorem paired_alone {second : Char} {alone both : TokenKind} (stops : ∀ d, cs.head? = some d → d ≠ second) :
    paired c second alone both cs = ⟨.ok alone,[c],cs⟩ := by
  cases cs with
  | nil => rfl
  | cons d rest => exact if_neg (stops d rfl)

theorem paired_both (c second : Char) (alone both : TokenKind) (cs : List Char) :
    paired c second alone both (second :: cs) = ⟨.ok both,[c,second],cs⟩ := if_pos rfl

theorem paired_cases (c second : Char) (alone both : TokenKind) (cs : List Char) :
    (∃ rest, cs = second :: rest ∧ paired c second alone both cs = ⟨.ok both,[c,second],rest⟩) ∨
      ((∀ d, cs.head? = some d → d ≠ second) ∧ paired c second alone both cs = ⟨.ok alone,[c],cs⟩) := by
  by_cases meets : cs.head? = some second
  · obtain ⟨rest,rfl⟩ := List.head?_eq_some_iff.mp meets
    exact .inl ⟨rest,rfl,paired_both c second alone both rest⟩
  · have stops : ∀ d, cs.head? = some d → d ≠ second := by
      rintro d first rfl
      exact meets first
    exact .inr ⟨stops,paired_alone stops⟩

theorem paired_again {second : Char} {alone both : TokenKind} (seen : isBlank second = false)
    (follows : Follows (paired c second alone both cs).rest other) :
    paired c second alone both ((paired c second alone both cs).chars.tail ++ other) =
      { paired c second alone both cs with rest := other } := by
  rcases paired_cases c second alone both cs with ⟨rest,rfl,cut⟩ | ⟨stops,cut⟩
  · rw [cut]
    exact paired_both c second alone both other
  · rw [cut] at follows ⊢
    refine paired_alone (follows.stops stops ?_)
    rintro d blank rfl
    cases blank.symm.trans seen

theorem paired_firm {second : Char} {alone both : TokenKind} (visible : isBlank c = false)
    (seen : isBlank second = false) (one : ∀ spelling, alone ≠ .name spelling)
    (two : ∀ spelling, both ≠ .name spelling) :
    Firm (paired c second alone both) (paired c second alone both cs) := by
  refine ⟨fun other alike => paired_again seen alike.follows,?_,?_⟩
  all_goals rcases paired_cases c second alone both cs with ⟨rest,rfl,cut⟩ | ⟨_,cut⟩
  all_goals rw [cut]
  · rintro d ⟨⟩
    exact seen
  · rintro d ⟨⟩
    exact visible
  · exact fun spelling named => absurd (Except.ok.inj named) (two spelling)
  · exact fun spelling named => absurd (Except.ok.inj named) (one spelling)

theorem isBlank_of_isComparison (comparison : isComparison c = true) : isBlank c = false := by
  simp only [isComparison,Bool.or_eq_true,beq_iff_eq] at comparison
  rcases comparison with (rfl | rfl) | rfl <;> decide

theorem isComparison_of_isBlank (blank : isBlank c = true) : isComparison c = false := by
  cases comparison : isComparison c with
  | false => rfl
  | true => cases blank.symm.trans (isBlank_of_isComparison comparison)

theorem comparison_alone (stops : ∀ d, cs.head? = some d → isComparison d = false) :
    ofComparison c cs = ⟨.ok (comparisonAlone c),[c],cs⟩ := by
  cases cs with
  | nil => rfl
  | cons d rest => exact if_neg (Bool.eq_false_iff.mp (stops d rfl))

theorem comparison_both {d : Char} (follows : isComparison d = true) (rest : List Char) :
    ofComparison c (d :: rest) = ⟨(ofComparison c [d]).outcome,[c,d],rest⟩ := by
  unfold ofComparison
  simp only [if_pos follows]

theorem comparison_cases (cs : List Char) :
    (∃ d rest, cs = d :: rest ∧ isComparison d = true) ∨
      ∀ d, cs.head? = some d → isComparison d = false := by
  cases cs with
  | nil => exact .inr fun _ none => by cases none
  | cons d rest =>
    cases comparison : isComparison d with
    | true => exact .inl ⟨d,rest,rfl,comparison⟩
    | false =>
      right
      rintro _ ⟨⟩
      exact comparison

theorem ofComparison_again (follows : Follows (ofComparison c cs).rest other) :
    ofComparison c ((ofComparison c cs).chars.tail ++ other) = { ofComparison c cs with rest := other } := by
  rcases comparison_cases cs with ⟨d,rest,rfl,both⟩ | stops
  · rw [comparison_both both]
    exact comparison_both both other
  · rw [comparison_alone stops] at follows ⊢
    exact comparison_alone (follows.stops stops fun _ => isComparison_of_isBlank)

theorem ofComparison_firm (comparison : isComparison c = true) : Firm (ofComparison c) (ofComparison c cs) := by
  refine ⟨fun other alike => ofComparison_again alike.follows,fun d last => ?_,fun spelling named => ?_⟩
  · rcases comparison_cases cs with ⟨d,rest,rfl,both⟩ | stops
    · rw [comparison_both both] at last
      cases last
      exact isBlank_of_isComparison both
    · rw [comparison_alone stops] at last
      cases last
      exact isBlank_of_isComparison comparison
  · cases ofComparison_ok named

-- Where the closing quote stands does not depend on what is behind it.
theorem ofText_again (is : (ofText cs).outcome = .ok kind) (other : List Char) :
    ofText ((ofText cs).chars.tail ++ other) = { ofText cs with rest := other } := by
  obtain ⟨payload,rest,rfl,noLast,_⟩ := ofText_ok is
  rw [ofText_encode payload rest noLast]
  dsimp only [Quoted.literal]
  rw [List.cons_append,List.tail_cons,List.append_assoc]
  exact ofText_encode payload other noLast

theorem ofText_firm (is : (ofText cs).outcome = .ok kind) : Firm ofText (ofText cs) := by
  refine ⟨fun other _ => ofText_again is other,fun d last => ?_,fun spelling named => ?_⟩
  · obtain ⟨payload,rest,rfl,noLast,_⟩ := ofText_ok is
    rw [ofText_encode payload rest noLast,Quoted.literal,List.getLast?_concat] at last
    cases last
    decide
  · obtain ⟨_,_,_,_,none⟩ := ofText_ok named
    cases none

theorem ofName_again (starts : startsName c = true) (follows : Follows (ofName (c :: cs)).rest other) :
    ofName (c :: ((ofName (c :: cs)).chars.tail ++ other)) = { ofName (c :: cs) with rest := other } := by
  have first : c :: ((c :: cs).takeWhile continuesName).tail = (c :: cs).takeWhile continuesName := by
    rw [List.takeWhile_cons_of_pos (continuesName_of_startsName starts)]
    rfl
  obtain ⟨taken,left⟩ := takeWhile_again (fun _ => continuesName_of_isBlank) follows
  unfold ofName
  dsimp only
  rw [← List.cons_append,first,taken,left]

theorem ofName_firm (starts : startsName c = true) : Firm (ofName ∘ (c :: ·)) (ofName (c :: cs)) := by
  refine ⟨fun other alike => ofName_again starts alike.follows,fun d last => ?_,fun spelling named => ?_⟩
  · exact isBlank_of_continuesName (List.mem_takeWhile_imp (List.mem_of_getLast? last))
  · unfold ofName at named ⊢
    dsimp only at named ⊢
    split at named
    · cases named
    split at named
    · cases named
    split at named
    · cases named
    · cases named
      rw [String.toList_ofList]

theorem splitPoint_again (follows : Follows (splitPoint cs).2 other) :
    splitPoint ((splitPoint cs).1 ++ other) = ((splitPoint cs).1,other) := by
  unfold splitPoint at follows
  split at follows
  · obtain ⟨taken,left⟩ := takeWhile_again (fun _ => isDigit_of_isBlank) follows
    simp only [splitPoint,List.cons_append,taken,left]
  · rename_i noPoint
    have stops : ∀ c, cs.head? = some c → c ≠ '.' := by
      rintro c first rfl
      obtain ⟨rest,rfl⟩ := List.head?_eq_some_iff.mp first
      exact noPoint rest rfl
    rw [splitPoint_none stops]
    refine splitPoint_none (follows.stops stops ?_)
    rintro c blank rfl
    exact absurd blank (by decide)

theorem isExponentMark_of_isBlank (blank : isBlank c = true) : isExponentMark c = false := by
  rw [Bool.eq_false_iff]
  intro mark
  simp only [isExponentMark,Bool.or_eq_true,beq_iff_eq] at mark
  rcases mark with rfl | rfl <;> exact absurd blank (by decide)

theorem splitExponent_again (follows : Follows (splitExponent cs).2 other) :
    splitExponent ((splitExponent cs).1 ++ other) = ((splitExponent cs).1,other) := by
  by_cases marked : ∃ d ds, cs = d :: ds ∧ isExponentMark d = true
  · obtain ⟨d,ds,rfl,mark⟩ := marked
    have same : splitExponent (d :: ds) = (d :: ds.takeWhile Char.isDigit,ds.dropWhile Char.isDigit) := if_pos mark
    rw [same] at follows ⊢
    obtain ⟨taken,left⟩ := takeWhile_again (fun _ => isDigit_of_isBlank) follows
    simp only [splitExponent,mark,if_true,List.cons_append,taken,left]
  · have stops : ∀ d, cs.head? = some d → isExponentMark d = false := by
      intro d first
      obtain ⟨ds,rfl⟩ := List.head?_eq_some_iff.mp first
      exact Bool.eq_false_iff.mpr fun mark => marked ⟨d,ds,rfl,mark⟩
    rw [splitExponent_none stops] at follows ⊢
    exact splitExponent_none (follows.stops stops fun _ => isExponentMark_of_isBlank)

variable {whole point exponent rest : List Char}

namespace NumberParts

theorem again (parts : NumberParts cs whole point exponent rest) {other : List Char} (follows : Follows rest other) :
    NumberParts (whole ++ point ++ exponent ++ other) whole point exponent other := by
  have second := splitPoint_whole (cs.dropWhile Char.isDigit)
  rw [parts.pointed] at second
  have digits : Follows (cs.dropWhile Char.isDigit) (point ++ (exponent ++ other)) := by
    rw [← second]
    exact (follows.behind exponent).behind point
  have middle : Follows (splitPoint (cs.dropWhile Char.isDigit)).2 (exponent ++ other) := by
    rw [parts.pointed]
    exact follows.behind exponent
  have last : Follows (splitExponent (exponent ++ rest)).2 other := by
    rw [parts.marked]
    exact follows
  obtain ⟨taken,left⟩ := takeWhile_again (fun _ => isDigit_of_isBlank) digits
  have pointed := splitPoint_again middle
  have marked := splitExponent_again last
  rw [parts.pointed] at pointed
  rw [parts.marked] at marked
  rw [List.append_assoc,List.append_assoc,parts.digits]
  exact ⟨taken.symm,by rw [left,pointed],marked⟩

theorem body_visible (parts : NumberParts cs whole point exponent rest) :
    ∀ c ∈ whole ++ point ++ exponent, isBlank c = false := by
  have digits : ∀ (cs : List Char), ∀ c ∈ cs.takeWhile Char.isDigit, isBlank c = false :=
    fun cs c present => isBlank_of_isDigit (List.mem_takeWhile_imp present)
  have headed : ∀ (d : Char) (cs : List Char), isBlank d = false → ∀ c ∈ d :: cs.takeWhile Char.isDigit,
      isBlank c = false := by
    intro d cs visible c present
    rcases List.mem_cons.mp present with rfl | later
    · exact visible
    · exact digits cs c later
  intro c present
  rcases List.mem_append.mp present with front | mark
  · rcases List.mem_append.mp front with first | second
    · rw [parts.digits] at first
      exact digits cs c first
    · have same := congrArg Prod.fst parts.pointed
      rw [← show (splitPoint (cs.dropWhile Char.isDigit)).1 = point from same] at second
      unfold splitPoint at second
      split at second
      · exact headed '.' _ (by decide) c second
      · cases second
  · have same := congrArg Prod.fst parts.marked
    rw [← show (splitExponent (exponent ++ rest)).1 = exponent from same] at mark
    unfold splitExponent at mark
    split at mark
    · cases mark
    · split at mark
      · rename_i d ds _ isMark
        refine headed d ds ?_ c mark
        simp only [isExponentMark,Bool.or_eq_true,beq_iff_eq] at isMark
        rcases isMark with rfl | rfl <;> decide
      · cases mark

end NumberParts

theorem numberSuffix_again {other : List Char}
    (follows : Follows (rest.drop (numberSuffix rest.head?).length) other) :
    numberSuffix (numberSuffix rest.head? ++ other).head? = numberSuffix rest.head? := by
  rcases numberSuffix_cases rest with ⟨same,after,rfl⟩ | ⟨same,after,rfl⟩ | ⟨same,plain⟩
  · rw [same]
    rfl
  · rw [same]
    rfl
  · rw [same] at follows ⊢
    have blank : ∀ c, isBlank c = true → c ≠ 'm' ∧ c ≠ 'f' := by
      intro c blank
      constructor <;> rintro rfl <;> exact absurd blank (by decide)
    exact numberSuffix_none (follows.stops plain blank)

theorem ofParts_ok (is : (ofParts whole point exponent rest).outcome = .ok kind) :
    ∃ suffix after, rest = suffix ++ after ∧ (∀ c ∈ suffix, isBlank c = false) ∧
      ∀ other, Follows after other → ofParts whole point exponent (suffix ++ other) =
        ⟨.ok kind,whole ++ point ++ exponent ++ suffix,other⟩ := by
  rw [ofParts_kind] at is
  cases made : numberKind whole point exponent (numberSuffix rest.head?) with
  | error cause =>
    rw [made] at is
    cases is
  | ok found =>
    rw [made] at is
    cases is
    refine ⟨_,_,(numberSuffix_drop rest).symm,fun c present => ?_,fun other follows => ?_⟩
    · rcases numberSuffix_cases rest with ⟨same,_⟩ | ⟨same,_⟩ | ⟨same,_⟩
      all_goals
        rw [same] at present
        cases present <;> first | decide | contradiction
    · rw [ofParts_kind,numberSuffix_again follows,made]
      simp

theorem ofNumber_again (digit : c.isDigit = true) (is : (ofNumber (c :: cs)).outcome = .ok kind)
    (follows : Follows (ofNumber (c :: cs)).rest other) :
    ofNumber (c :: ((ofNumber (c :: cs)).chars.tail ++ other)) = { ofNumber (c :: cs) with rest := other } ∧
      ∀ d ∈ (ofNumber (c :: cs)).chars, isBlank d = false := by
  obtain ⟨whole,point,exponent,rest,parts⟩ := numberParts (c :: cs)
  rw [parts.eq] at is follows ⊢
  obtain ⟨suffix,after,rfl,suffixed,cut⟩ := ofParts_ok is
  rw [cut after (follows_self after)] at follows ⊢
  obtain ⟨tail,first⟩ : ∃ tail, whole = c :: tail := by
    rw [parts.digits,List.takeWhile_cons_of_pos digit]
    exact ⟨_,rfl⟩
  constructor
  · have again := (parts.again (follows.behind suffix)).eq
    rw [← List.append_assoc,cut other follows] at again
    rw [← again,first]
    rfl
  · intro d present
    rcases List.mem_append.mp present with body | mark
    · exact parts.body_visible d body
    · exact suffixed d mark

theorem ofNumber_firm (digit : c.isDigit = true) (is : (ofNumber (c :: cs)).outcome = .ok kind) :
    Firm (ofNumber ∘ (c :: ·)) (ofNumber (c :: cs)) := by
  refine ⟨fun other alike => (ofNumber_again digit is alike.follows).1,fun d last => ?_,fun spelling named => ?_⟩
  · exact (ofNumber_again digit is (follows_self _)).2 d (List.mem_of_getLast? last)
  · rcases ofNumber_ok named with ⟨_,none⟩ | ⟨_,none⟩ | ⟨_,none⟩ | ⟨_,none⟩ <;> cases none

theorem scan_firm (visible : isBlank c = false) (is : (scan c cs).outcome = .ok kind) :
    Firm (scan c) (scan c cs) := by
  have scanned := scanner c
  generalize scan c = scanner at scanned is ⊢
  cases scanned with
  | single found =>
    refine ⟨fun _ _ => rfl,?_,fun spelling named => ?_⟩
    · rintro d ⟨⟩
      exact visible
    · cases named
      cases single_ok found
  | bang | bar | ampersand =>
    exact paired_firm visible (by decide) (fun _ => TokenKind.noConfusion) fun _ => TokenKind.noConfusion
  | comparison comparison => exact ofComparison_firm comparison
  | text => exact ofText_firm is
  | number digit => exact ofNumber_firm digit is
  | name starts => exact ofName_firm starts
  | invalid => cases is

-- The lexeme of a token is cut off again in front of any text that takes nothing from it.
theorem scan_again (visible : isBlank c = false) (is : (scan c cs).outcome = .ok kind) :
    ∃ tail, (scan c cs).chars = c :: tail ∧ c :: cs = c :: tail ++ (scan c cs).rest ∧
      ∀ other, Follows (scan c cs).rest other → scan c (tail ++ other) = ⟨.ok kind,c :: tail,other⟩ := by
  obtain ⟨filled,cut⟩ := scan_cuts c cs
  have again : ∀ other, Follows (scan c cs).rest other →
      scan c ((scan c cs).chars.tail ++ other) = { scan c cs with rest := other } := by
    intro other
    have scanned := scanner c
    generalize scan c = scanner at scanned is ⊢
    cases scanned with
    | single => exact fun _ => rfl
    | bang | bar | ampersand => exact paired_again (by decide)
    | comparison => exact ofComparison_again
    | text => exact fun _ => ofText_again is other
    | number digit => exact fun follows => (ofNumber_again digit is follows).1
    | name starts => exact ofName_again starts
    | invalid => cases is
  cases split : (scan c cs).chars with
  | nil => exact absurd split filled
  | cons d tail =>
    rw [split] at cut again
    obtain rfl := (List.cons.inj cut).1
    refine ⟨tail,rfl,cut.symm,fun other follows => ?_⟩
    have scanned := again other follows
    dsimp only [List.tail_cons] at scanned
    rw [scanned,is,split]

end Lexeme
end TypedFormula
