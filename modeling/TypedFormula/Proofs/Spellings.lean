import TypedFormula.Proofs.Scanners

namespace TypedFormula

theorem Text.takeWhile_run {p : Char → Bool} {run rest : List Char} (all : ∀ c ∈ run, p c = true)
    (stop : ∀ c, rest.head? = some c → p c = false) : (run ++ rest).takeWhile p = run := by
  rw [List.takeWhile_append_of_pos all]
  cases rest with
  | nil => simp
  | cons c cs => rw [List.takeWhile_cons_of_neg (by rw [stop c rfl]; simp),List.append_nil]

theorem Text.dropWhile_run {p : Char → Bool} {run rest : List Char} (all : ∀ c ∈ run, p c = true)
    (stop : ∀ c, rest.head? = some c → p c = false) : (run ++ rest).dropWhile p = rest := by
  rw [List.dropWhile_append_of_pos all]
  cases rest with
  | nil => rfl
  | cons c cs => rw [List.dropWhile_cons_of_neg (by rw [stop c rfl]; simp)]

structure IsName (spelling : String) : Prop where
  starts : ∃ c cs, spelling.toList = c :: cs ∧ Lexeme.startsName c = true
  continues : ∀ c ∈ spelling.toList, Lexeme.continuesName c = true
  noLastDot : spelling.toList.getLast? ≠ some '.'
  notTrue : spelling ≠ "true"
  notFalse : spelling ≠ "false"

namespace TokenKind

def Spellable : TokenKind → Prop
  | .beginning => False
  | .ending => False
  | .name spelling => IsName spelling
  | .int n => 0 ≤ n.toInt
  | .float x => ∃ bits < Binary.binary32.infinityBits, x = Lexeme.floatOf bits
  | .double x => ∃ bits < Binary.binary64.infinityBits, x = Lexeme.doubleOf bits
  | .decimal d => d.negative = false
  | .text s => s.toList.getLast? ≠ some '\\'
  | _ => True

end TokenKind

theorem Text.Quoted.decode_nil {cs rest : List Char} (read : decode cs = some ([],rest)) :
    ∃ rest, cs = '"' :: rest := by
  unfold decode at read
  split at read
  · cases read
  · exact ⟨_,rfl⟩
  · obtain ⟨inner,_,same⟩ := Option.map_eq_some_iff.mp read
    cases same
  · obtain ⟨inner,_,same⟩ := Option.map_eq_some_iff.mp read
    cases same

-- A backslash in front of the closing quote would have escaped it.
theorem Text.Quoted.decode_noLastBackslash (cs payload rest : List Char)
    (read : decode cs = some (payload,rest)) : payload.getLast? ≠ some '\\' := by
  fun_induction decode cs generalizing payload with
  | case1 => cases read
  | case2 cs => cases read; simp
  | case3 cs ih =>
    obtain ⟨inner,found,same⟩ := Option.map_eq_some_iff.mp read
    cases same
    have last := ih _ found
    cases first : inner.1 with
    | nil => simp
    | cons d ds => rw [List.getLast?_cons_cons,← first]; exact last
  | case4 c cs notQuote notEscape ih =>
    obtain ⟨inner,found,same⟩ := Option.map_eq_some_iff.mp read
    cases same
    have last := ih _ found
    cases first : inner.1 with
    | nil =>
      obtain ⟨rest,rfl⟩ : ∃ rest, cs = '"' :: rest := decode_nil (by rw [found,← first])
      intro backslash
      cases backslash
      exact notEscape rest rfl rfl
    | cons d ds => rw [List.getLast?_cons_cons,← first]; exact last

namespace Lexeme

theorem Binary.Format.ofScientific_le (f : Binary.Format) (n : Nat) (e : Int) :
    f.ofScientific n e ≤ f.infinityBits := by
  have bounded : ∀ n d, f.nearest n d ≤ f.infinityBits := by
    intro n d
    unfold Binary.Format.nearest
    split
    · exact Nat.zero_le _
    · exact Nat.min_le_right _ _
  unfold Binary.Format.ofScientific
  dsimp only
  repeat' split
  all_goals first | exact Nat.zero_le _ | exact Nat.le_refl _ | exact bounded _ _

variable (c : Char) (cs : List Char)

theorem ofText_spellable {kind : TokenKind} (is : (ofText cs).outcome = .ok kind) : kind.Spellable := by
  unfold ofText at is
  split at is
  · cases is
  · rename_i payload rest read
    cases is
    change (String.ofList payload).toList.getLast? ≠ _
    rw [String.toList_ofList]
    exact Text.Quoted.decode_noLastBackslash cs payload rest read

theorem continuesName_of_startsName {c : Char} (starts : startsName c = true) : continuesName c = true := by
  simp only [startsName,Bool.or_eq_true] at starts
  simp only [continuesName,Bool.or_eq_true]
  rcases starts with letter | underscore
  · exact .inl (.inl (.inl letter))
  · exact .inl (.inr underscore)

theorem ofName_spellable (starts : startsName c = true) {kind : TokenKind}
    (is : (ofName (c :: cs)).outcome = .ok kind) : kind.Spellable := by
  unfold ofName at is
  dsimp only at is
  split at is
  · cases is
  rename_i noLastDot
  split at is
  · cases is; trivial
  rename_i notTrue
  split at is
  · cases is; trivial
  rename_i notFalse
  cases is
  refine ⟨?_,?_,?_,notTrue,notFalse⟩
  · rw [String.toList_ofList,List.takeWhile_cons_of_pos (continuesName_of_startsName starts)]
    exact ⟨c,_,rfl,starts⟩
  · rw [String.toList_ofList]
    intro d present
    exact List.all_eq_true.mp List.all_takeWhile d present
  · rw [String.toList_ofList]
    exact noLastDot

theorem intKind_spellable (body : List Char) {kind : TokenKind} (is : intKind body = .ok kind) :
    kind.Spellable := by
  unfold intKind at is
  split at is
  · rename_i fits
    cases is
    change 0 ≤ (Int32.ofNat (digitsValue body)).toInt
    rw [Int32.toInt_ofNat_of_lt (by unfold maxInt at fits; omega)]
    omega
  · cases is

theorem toLower_of_isDigit (digit : c.isDigit = true) : c.toLower = c := by
  simp only [Char.isDigit,Bool.and_eq_true,decide_eq_true_eq] at digit
  unfold Char.toLower
  rw [dif_neg]
  rintro ⟨letter,_⟩
  exact absurd (UInt32.le_trans letter digit.2) (by decide)

theorem readMagnitude_number (f : Binary.Format) (digit : c.isDigit = true) :
    f.readMagnitude (c :: cs) =
      (Binary.readScientific (c :: cs)).map fun n => f.ofScientific n.significand n.exponent := by
  have noWord : ∀ (word : String) (d : Char) (ds : List Char), word.toList = d :: ds →
      d.isDigit = false → String.ofList ((c :: cs).map Char.toLower) ≠ word := by
    rintro word d ds letters letter rfl
    rw [String.toList_ofList,List.map_cons,toLower_of_isDigit c digit] at letters
    rw [← (List.cons.inj letters).1,digit] at letter
    cases letter
  unfold Binary.Format.readMagnitude
  cases Binary.readScientific (c :: cs) with
  | some n => rfl
  | none =>
    dsimp only
    rw [if_neg (not_or.mpr ⟨noWord "inf" 'i' _ rfl rfl,noWord "infinity" 'i' _ rfl rfl⟩),
      if_neg (noWord "nan" 'n' _ rfl rfl)]
    rfl

theorem floatingKind_bounded (f : Binary.Format) (make : Nat → TokenKind) (digit : c.isDigit = true)
    {kind : TokenKind} (is : floatingKind f make (c :: cs) = .ok kind) :
    ∃ bits < f.infinityBits, kind = make bits := by
  unfold floatingKind at is
  rw [readMagnitude_number c cs f digit] at is
  split at is
  · cases is
  · rename_i bits read
    obtain ⟨n,_,rfl⟩ := Option.map_eq_some_iff.mp read
    split at is
    · cases is
    · rename_i finite
      cases is
      exact ⟨_,Nat.lt_of_le_of_ne (Binary.Format.ofScientific_le f _ _) finite,rfl⟩

theorem decimal_unsigned (digit : c.isDigit = true) (plain : (c :: cs).any isExponentMark = false)
    {d : Decimal} (read : Decimal.ofChars? (c :: cs) = some d) : d.negative = false := by
  have unmarked : (c :: cs).dropWhile (fun c => !Decimal.isExponentMark c) = [] := by
    rw [← List.append_nil (c :: cs)]
    refine Text.dropWhile_run (fun d present => ?_) (by simp)
    have clear := List.any_eq_false.mp plain d present
    simpa [isExponentMark,Decimal.isExponentMark] using clear
  unfold Decimal.ofChars? at read
  rw [unmarked] at read
  dsimp only at read
  unfold Decimal.readPlain at read
  split at read
  · rename_i same
    rw [(List.cons.inj same).1] at digit
    exact absurd digit (by decide)
  · rename_i same
    rw [(List.cons.inj same).1] at digit
    exact absurd digit (by decide)
  · obtain ⟨parts,_,made⟩ := Option.bind_eq_some_iff.mp read
    unfold Decimal.ofParts? Decimal.ofSigned? at made
    split at made
    · cases made; rfl
    · cases made

theorem decimalKind_spellable (digit : c.isDigit = true) {kind : TokenKind}
    (is : decimalKind (c :: cs) = .ok kind) : kind.Spellable := by
  unfold decimalKind at is
  split at is
  · cases is
  rename_i plain
  dsimp only at is
  split at is
  · rename_i d read
    cases is
    have clear := Bool.eq_false_iff.mpr plain
    split at read
    · rename_i point
      cases cs with
      | nil => cases point; exact absurd digit (by decide)
      | cons e es =>
        refine decimal_unsigned c _ digit ?_ read
        rw [List.any_eq_false] at clear ⊢
        intro x present
        exact clear x (List.mem_cons.mpr ((List.mem_cons.mp present).imp_right (List.dropLast_subset _ ·)))
    · exact decimal_unsigned c cs digit clear read
  · cases is

theorem ofNumber_spellable (digit : c.isDigit = true) {kind : TokenKind}
    (is : (ofNumber (c :: cs)).outcome = .ok kind) : kind.Spellable := by
  obtain ⟨_,_,_,_,parts⟩ := numberParts (c :: cs)
  obtain ⟨tail,starts⟩ := parts.starts digit
  rw [parts.eq,ofParts_outcome] at is
  unfold numberKind at is
  rw [starts] at is
  split at is
  · exact decimalKind_spellable c tail digit is
  split at is
  · obtain ⟨bits,finite,rfl⟩ := floatingKind_bounded c tail Binary.binary32 _ digit is
    exact ⟨bits,finite,rfl⟩
  split at is
  · exact intKind_spellable _ is
  · obtain ⟨bits,finite,rfl⟩ := floatingKind_bounded c tail Binary.binary64 _ digit is
    exact ⟨bits,finite,rfl⟩

theorem single_spellable {kind : TokenKind} (is : single? c = some kind) : kind.Spellable := by
  unfold single? at is
  split at is
  all_goals
    cases is
    try trivial

theorem ofComparison_spellable {kind : TokenKind} (is : (ofComparison c cs).outcome = .ok kind) :
    kind.Spellable := by
  have alone : (comparisonAlone c).Spellable := by
    unfold comparisonAlone
    repeat' split
    all_goals trivial
  cases cs with
  | nil => cases is; exact alone
  | cons second rest =>
    simp only [ofComparison] at is
    split at is
    · unfold comparison? at is
      split at is
      · rename_i both found
        cases is
        split at found
        all_goals
          cases found
          try trivial
      · cases is
    · cases is; exact alone

theorem scan_spellable {kind : TokenKind} (is : (scan c cs).outcome = .ok kind) : kind.Spellable := by
  have scanned := scanner c
  generalize scan c = scanner at scanned is
  cases scanned with
  | single found =>
    cases is
    exact single_spellable _ found
  | bang | bar | ampersand => rcases paired_kinds is with rfl | rfl <;> trivial
  | comparison => exact ofComparison_spellable _ cs is
  | text => exact ofText_spellable cs is
  | number digit => exact ofNumber_spellable _ cs digit is
  | name starts => exact ofName_spellable _ cs starts is
  | invalid => cases is

end Lexeme
end TypedFormula
