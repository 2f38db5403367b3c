import TypedFormula.Proofs.Lexing
import TypedFormula.Proofs.NumberText

namespace TypedFormula

namespace Lexer

-- The text has tokens of these kinds, up to its end.
def Cuts (cs : List Char) (kinds : List TokenKind) : Prop :=
  ∀ position, ∃ tokens, Scans position cs tokens ∧ tokens.map (·.kind) = kinds ++ [.ending]

theorem Cuts.nil : Cuts [] [] := fun _ => ⟨_,.done rfl rfl,rfl⟩

variable {c : Char} {cs rest : List Char} {kind : TokenKind} {kinds : List TokenKind}

theorem Cuts.blank (blank : Text.isBlank c = true) (cuts : Cuts cs kinds) : Cuts (c :: cs) kinds := by
  intro position
  obtain ⟨tokens,scans,are⟩ := cuts (position + c.utf8Size)
  have further : position + Text.byteLength ((c :: cs).takeWhile Text.isBlank) =
      position + c.utf8Size + Text.byteLength (cs.takeWhile Text.isBlank) := by
    rw [List.takeWhile_cons_of_pos blank,Text.byteLength,Nat.add_assoc]
  have same : (c :: cs).dropWhile Text.isBlank = cs.dropWhile Text.isBlank :=
    List.dropWhile_cons_of_pos blank
  refine ⟨tokens,?_,are⟩
  cases scans with
  | done none stops => exact .done (by rw [same,none]) (by rw [stops,further])
  | lexeme skipped starts is stops others =>
    exact .lexeme (by rw [same,skipped]) (by rw [starts,further]) is stops others

theorem Cuts.blanks {gap : List Char} (blank : ∀ c ∈ gap, Text.isBlank c = true) (cuts : Cuts cs kinds) :
    Cuts (gap ++ cs) kinds := by
  induction gap with
  | nil => exact cuts
  | cons c gap ih =>
    obtain ⟨first,others⟩ := List.forall_mem_cons.mp blank
    exact (ih others).blank first

theorem Cuts.lexeme (visible : Text.isBlank c = false) (is : (Lexeme.scan c cs).outcome = .ok kind)
    (left : (Lexeme.scan c cs).rest = rest) (cuts : Cuts rest kinds) : Cuts (c :: cs) (kind :: kinds) := by
  intro position
  have stands : (c :: cs).dropWhile Text.isBlank = c :: cs :=
    List.dropWhile_cons_of_neg (by rw [visible]; simp)
  obtain ⟨tokens,scans,are⟩ := cuts (position + Text.byteLength ((c :: cs).takeWhile Text.isBlank) +
    Text.byteLength (Lexeme.scan c cs).chars)
  refine ⟨_,.lexeme stands rfl is rfl (by rw [left]; exact scans),?_⟩
  rw [List.map_cons,are]
  rfl

theorem Cuts.single (visible : Text.isBlank c = false) (is : Lexeme.single? c = some kind)
    (cuts : Cuts cs kinds) : Cuts (c :: cs) (kind :: kinds) := by
  have scanned : Lexeme.scan c cs = ⟨.ok kind,[c],cs⟩ := by
    unfold Lexeme.scan
    rw [is]
  exact .lexeme visible (by rw [scanned]) (by rw [scanned]) cuts

end Lexer

namespace Text

theorem toNat_of_isBlank {c : Char} (blank : isBlank c = true) : c.toNat < 48 ∨ 128 ≤ c.toNat := by
  have ascii : ∀ b ∈ blankRanges, b.2 < 48 ∨ 128 ≤ b.1 := by decide
  obtain ⟨b,present,low,high⟩ := (CodeRanges.contains_iff _ _).mp blank
  have side := ascii b present
  omega

theorem toNat_of_isDigit {c : Char} (digit : c.isDigit = true) : 48 ≤ c.toNat ∧ c.toNat < 58 := by
  simp only [Char.isDigit,Bool.and_eq_true,decide_eq_true_eq,ge_iff_le,UInt32.le_iff_toNat_le] at digit
  change 48 ≤ c.toNat ∧ c.toNat ≤ 57 at digit
  omega

theorem toNat_of_isLetter {c : Char} (letter : isLetter c = true) : 65 ≤ c.toNat := by
  unfold isLetter at letter
  split at letter
  · change (decide (c.val ≥ 'A'.val ∧ c.val ≤ 'Z'.val) ||
      (decide (c.val ≥ 'a'.val) && decide (c.val ≤ 'z'.val))) = true at letter
    simp only [Bool.or_eq_true,Bool.and_eq_true,decide_eq_true_eq,ge_iff_le,UInt32.le_iff_toNat_le] at letter
    change (65 ≤ c.toNat ∧ c.toNat ≤ 90) ∨ (97 ≤ c.toNat ∧ c.toNat ≤ 122) at letter
    omega
  · omega

-- No blank is a letter: none of the ranges of the two classes meet.
theorem isLetter_of_isBlank {c : Char} (blank : isBlank c = true) : isLetter c = false := by
  have apart : ∀ b ∈ blankRanges, ∀ l ∈ letterRanges, b.2 < l.1 ∨ l.2 < b.1 := by decide +kernel
  rw [Bool.eq_false_iff]
  intro letter
  have low := toNat_of_isLetter letter
  have side := toNat_of_isBlank blank
  unfold isLetter at letter
  rw [if_neg (by omega)] at letter
  obtain ⟨b,isBlank,_,_⟩ := (CodeRanges.contains_iff _ _).mp blank
  obtain ⟨l,isLetter,_,_⟩ := (CodeRanges.contains_iff _ _).mp letter
  have none := apart b isBlank l isLetter
  omega

end Text

namespace Lexeme

variable {c : Char} {cs : List Char}

theorem isBlank_of_startsName (starts : startsName c = true) : Text.isBlank c = false := by
  rw [Bool.eq_false_iff]
  intro blank
  rw [startsName,Text.isLetter_of_isBlank blank,Bool.false_or] at starts
  rw [eq_of_beq starts] at blank
  exact absurd blank (by decide)

theorem isBlank_of_isDigit (digit : c.isDigit = true) : Text.isBlank c = false := by
  rw [Bool.eq_false_iff]
  intro blank
  have one := Text.toNat_of_isBlank blank
  have two := Text.toNat_of_isDigit digit
  omega

theorem isDigit_of_startsName (starts : startsName c = true) : c.isDigit = false := by
  rw [Bool.eq_false_iff]
  intro digit
  have high := Text.toNat_of_isDigit digit
  rw [startsName,Bool.or_eq_true] at starts
  rcases starts with letter | underscore
  · have low := Text.toNat_of_isLetter letter
    omega
  · rw [eq_of_beq underscore] at high
    exact absurd high.2 (by decide)

theorem scan_plain (alone : single? c = none)
    (plain : c ≠ '!' ∧ c ≠ '=' ∧ c ≠ '<' ∧ c ≠ '>' ∧ c ≠ '|' ∧ c ≠ '&') :
    scan c cs = if c = '"' then ofText cs else if c.isDigit then ofNumber (c :: cs)
      else if startsName c then ofName (c :: cs) else ⟨.error (.invalidCharacter c),[c],cs⟩ := by
  obtain ⟨bang,equal,less,greater,bar,both⟩ := plain
  have comparison : isComparison c = false := by simp [isComparison,equal,less,greater]
  unfold scan
  rw [alone]
  dsimp only
  rw [if_neg bang,comparison,if_neg Bool.false_ne_true,if_neg bar,if_neg both]

theorem scan_name (starts : startsName c = true) : scan c cs = ofName (c :: cs) := by
  have other : ∀ d, startsName d = false → c ≠ d := by
    rintro d noStart rfl
    rw [starts] at noStart
    cases noStart
  have alone : single? c = none := by
    unfold single?
    split
    all_goals first | rfl | exact absurd starts (by decide)
  rw [scan_plain alone ⟨other _ rfl,other _ rfl,other _ rfl,other _ rfl,other _ rfl,other _ rfl⟩,
    if_neg (other '"' rfl),isDigit_of_startsName starts,if_neg Bool.false_ne_true,if_pos starts]

theorem scan_number (digit : c.isDigit = true) : scan c cs = ofNumber (c :: cs) := by
  have other : ∀ d : Char, d.isDigit = false → c ≠ d := by
    rintro d noDigit rfl
    rw [digit] at noDigit
    cases noDigit
  have alone : single? c = none := by
    unfold single?
    split
    all_goals first | rfl | exact absurd digit (by decide)
  rw [scan_plain alone ⟨other _ rfl,other _ rfl,other _ rfl,other _ rfl,other _ rfl,other _ rfl⟩,
    if_neg (other '"' rfl),if_pos digit]

theorem scan_text : scan '"' cs = ofText cs := rfl

end Lexeme

namespace Text.Quoted

theorem encode_cons {c : Char} (other : c ≠ '"') (cs : List Char) : encode (c :: cs) = c :: encode cs := by
  rw [encode,List.flatMap_cons,if_neg other]
  rfl

-- What is written for a text is read as the text, whatever follows. A backslash at its end would escape
-- the closing quote.
theorem decode_encode (payload rest : List Char) (noLast : payload.getLast? ≠ some '\\') :
    decode (encode payload ++ '"' :: rest) = some (payload,rest) := by
  induction payload with
  | nil => rfl
  | cons c cs ih =>
    have later : cs.getLast? ≠ some '\\' := by
      cases cs with
      | nil => simp
      | cons d ds => rw [List.getLast?_cons_cons] at noLast; exact noLast
    have inner := ih later
    by_cases quote : c = '"'
    · subst quote
      change (decode (encode cs ++ '"' :: rest)).map _ = _
      rw [inner]
      rfl
    · rw [encode_cons quote,List.cons_append,decode]
      · rw [inner]
        rfl
      · exact quote
      · -- A backslash could only meet a quote as the last character.
        rintro tail rfl meets
        cases cs with
        | nil => exact noLast rfl
        | cons d ds =>
          rw [encode,List.flatMap_cons] at meets
          split at meets
          · cases meets
          · rename_i other
            exact other (List.cons.inj meets).1

theorem encode_decode {cs payload rest : List Char} (read : decode cs = some (payload,rest)) :
    cs = encode payload ++ '"' :: rest := by
  fun_induction decode cs generalizing payload with
  | case1 => cases read
  | case2 cs =>
    cases read
    rfl
  | case3 cs ih =>
    obtain ⟨inner,found,same⟩ := Option.map_eq_some_iff.mp read
    cases same
    exact congrArg ('\\' :: '"' :: ·) (ih found)
  | case4 c cs notQuote _ ih =>
    obtain ⟨inner,found,same⟩ := Option.map_eq_some_iff.mp read
    cases same
    rw [encode_cons notQuote]
    exact congrArg (c :: ·) (ih found)

end Text.Quoted

namespace Lexeme

open Text (Quoted.encode Quoted.literal)

theorem ofText_encode (payload rest : List Char) (noLast : payload.getLast? ≠ some '\\') :
    ofText (Quoted.encode payload ++ '"' :: rest) =
      ⟨.ok (.text (String.ofList payload)),Quoted.literal payload,rest⟩ := by
  have taken : (Quoted.encode payload ++ '"' :: rest).take
      ((Quoted.encode payload ++ '"' :: rest).length - rest.length) = Quoted.encode payload ++ ['"'] := by
    rw [List.append_cons,List.length_append,Nat.add_sub_cancel,List.take_left]
  unfold ofText
  rw [Text.Quoted.decode_encode payload rest noLast]
  dsimp only
  rw [taken]
  rfl

theorem ofText_ok {cs : List Char} {kind : TokenKind} (is : (ofText cs).outcome = .ok kind) :
    ∃ payload rest, cs = Quoted.encode payload ++ '"' :: rest ∧ payload.getLast? ≠ some '\\' ∧
      kind = .text (String.ofList payload) := by
  unfold ofText at is
  split at is
  · cases is
  · rename_i payload rest read
    cases is
    exact ⟨payload,rest,Text.Quoted.encode_decode read,Text.Quoted.decode_noLastBackslash cs payload rest read,rfl⟩

end Lexeme

namespace Lexer

variable {rest : List Char} {kinds : List TokenKind}

theorem Cuts.text (payload : List Char) (noLast : payload.getLast? ≠ some '\\') (cuts : Cuts rest kinds) :
    Cuts (Text.Quoted.literal payload ++ rest) (.text (String.ofList payload) :: kinds) := by
  have scanned := Lexeme.ofText_encode payload rest noLast
  rw [Text.Quoted.literal,List.cons_append,List.cons_append,List.append_assoc]
  refine .lexeme (by decide) ?_ ?_ cuts
  · exact congrArg Lexeme.outcome scanned
  · exact congrArg Lexeme.rest scanned

def wordKind (word : String) : TokenKind :=
  if word = "true" then .bool true else if word = "false" then .bool false else .name word

theorem Cuts.word {chars : List Char} (starts : ∃ c cs, chars = c :: cs ∧ Lexeme.startsName c = true)
    (continues : ∀ c ∈ chars, Lexeme.continuesName c = true) (noLastDot : chars.getLast? ≠ some '.')
    (stops : ∀ c, rest.head? = some c → Lexeme.continuesName c = false) (cuts : Cuts rest kinds) :
    Cuts (chars ++ rest) (wordKind (String.ofList chars) :: kinds) := by
  have run := Text.takeWhile_run continues stops
  have left := Text.dropWhile_run continues stops
  obtain ⟨c,cs,rfl,first⟩ := starts
  have scanned : Lexeme.scan c (cs ++ rest) = Lexeme.ofName (c :: (cs ++ rest)) := Lexeme.scan_name first
  rw [← List.cons_append,Lexeme.ofName,run,left] at scanned
  rw [if_neg noLastDot] at scanned
  rw [List.cons_append]
  refine .lexeme (Lexeme.isBlank_of_startsName first) ?_ (by rw [scanned]) cuts
  rw [scanned]
  unfold wordKind
  repeat' split
  all_goals rfl

theorem Cuts.name {spelling : String} (named : IsName spelling)
    (stops : ∀ c, rest.head? = some c → Lexeme.continuesName c = false) (cuts : Cuts rest kinds) :
    Cuts (spelling.toList ++ rest) (.name spelling :: kinds) := by
  have kind : wordKind (String.ofList spelling.toList) = .name spelling := by
    rw [String.ofList_toList,wordKind,if_neg named.notTrue,if_neg named.notFalse]
  rw [← kind]
  exact .word named.starts named.continues named.noLastDot stops cuts

theorem Cuts.bool (b : Bool) (stops : ∀ c, rest.head? = some c → Lexeme.continuesName c = false)
    (cuts : Cuts rest kinds) : Cuts ((Value.boolText b).toList ++ rest) (.bool b :: kinds) := by
  have kind : wordKind (String.ofList (Value.boolText b).toList) = .bool b := by
    cases b <;> rfl
  have continues : ∀ c ∈ (Value.boolText b).toList, Lexeme.continuesName c = true :=
    List.all_eq_true.mp (by cases b <;> rfl)
  rw [← kind]
  cases b
  · exact .word ⟨_,_,rfl,by decide⟩ continues (by decide) stops cuts
  · exact .word ⟨_,_,rfl,by decide⟩ continues (by decide) stops cuts

end Lexer
end TypedFormula
