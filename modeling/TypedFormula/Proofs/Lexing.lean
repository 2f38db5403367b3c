import TypedFormula.Lexer
import TypedFormula.Proofs.Spellings

namespace TypedFormula

namespace Lexeme

-- A lexeme cut from the front of a text takes at least a character, and with what is left behind it makes
-- up the text.
structure CutsFrom (lexeme : Lexeme) (cs : List Char) : Prop where
  filled : lexeme.chars ≠ []
  whole : lexeme.chars ++ lexeme.rest = cs

variable (c : Char) (cs : List Char)

theorem ofName_cuts (starts : startsName c = true) : (ofName (c :: cs)).CutsFrom (c :: cs) := by
  have continues := continuesName_of_startsName starts
  refine ⟨?_,List.takeWhile_append_dropWhile⟩
  change (c :: cs).takeWhile continuesName ≠ []
  rw [List.takeWhile_cons_of_pos continues]
  exact List.cons_ne_nil _ _

theorem ofText_cuts : (ofText cs).CutsFrom ('"' :: cs) := by
  unfold ofText
  cases found : Text.Quoted.decode cs with
  | none => exact ⟨List.cons_ne_nil _ _,List.append_nil _⟩
  | some read =>
    obtain ⟨raw,_,split⟩ := Text.Quoted.rest_suffix cs read.1 read.2 found
    refine ⟨List.cons_ne_nil _ _,?_⟩
    simp [split]

theorem ofNumber_cuts (digit : c.isDigit = true) : (ofNumber (c :: cs)).CutsFrom (c :: cs) := by
  obtain ⟨whole,point,exponent,rest,parts⟩ := numberParts (c :: cs)
  have filled : whole ++ point ++ exponent ≠ [] := by
    obtain ⟨tail,starts⟩ := parts.starts digit
    simp [starts]
  have suffix := numberSuffix_drop rest
  rw [parts.eq,ofParts_kind,← parts.split]
  split
  · exact ⟨List.append_ne_nil_of_left_ne_nil filled _,by rw [List.append_assoc,suffix]⟩
  · exact ⟨filled,rfl⟩

theorem paired_cuts (second : Char) (alone both : TokenKind) :
    (paired c second alone both cs).CutsFrom (c :: cs) := by
  cases cs with
  | nil => exact ⟨List.cons_ne_nil _ _,rfl⟩
  | cons d rest =>
    unfold paired
    dsimp only
    split
    all_goals exact ⟨List.cons_ne_nil _ _,rfl⟩

theorem ofComparison_cuts : (ofComparison c cs).CutsFrom (c :: cs) := by
  cases cs with
  | nil => exact ⟨List.cons_ne_nil _ _,rfl⟩
  | cons second rest =>
    unfold ofComparison
    dsimp only
    split
    all_goals exact ⟨List.cons_ne_nil _ _,rfl⟩

-- Whatever comes of it, a lexeme takes at least its first character, and nothing is lost.
theorem scan_cuts : (scan c cs).CutsFrom (c :: cs) := by
  have scanned := scanner c
  generalize scan c = scanner at scanned
  cases scanned with
  | single | invalid => exact ⟨List.cons_ne_nil _ _,rfl⟩
  | bang | bar | ampersand => exact paired_cuts _ cs _ _ _
  | comparison => exact ofComparison_cuts c cs
  | text => exact ofText_cuts cs
  | number digit => exact ofNumber_cuts c cs digit
  | name starts => exact ofName_cuts c cs starts

theorem scan_shortens : (scan c cs).rest.length ≤ cs.length := by
  obtain ⟨filled,whole⟩ := scan_cuts c cs
  have positive := List.length_pos_iff.mpr filled
  have lengths := congrArg List.length whole
  rw [List.length_append,List.length_cons] at lengths
  omega

end Lexeme

namespace Lexer

-- The tokens of a text that starts at a byte position: blanks are skipped, and each lexeme goes on from
-- where the one before it ended. The last token is the end.
inductive Scans : Nat → List Char → List Token → Prop where
  | done {position cs stop} (blank : cs.dropWhile Text.isBlank = [])
      (stops : stop = position + Text.byteLength (cs.takeWhile Text.isBlank)) :
      Scans position cs [⟨.ending,⟨stop,stop⟩⟩]
  | lexeme {position cs c rest kind start stop tokens} (skipped : cs.dropWhile Text.isBlank = c :: rest)
      (starts : start = position + Text.byteLength (cs.takeWhile Text.isBlank))
      (is : (Lexeme.scan c rest).outcome = .ok kind)
      (stops : stop = start + Text.byteLength (Lexeme.scan c rest).chars)
      (others : Scans stop (Lexeme.scan c rest).rest tokens) :
      Scans position cs (⟨kind,⟨start,stop⟩⟩ :: tokens)

variable {lx : Lexer}

def onset (lx : Lexer) : Nat := lx.position + Text.byteLength (lx.rest.takeWhile Text.isBlank)

-- The lexer behind a lexeme that starts there. The token before it is still the current one.
def pass (lx : Lexer) (lexeme : Lexeme) : Lexer :=
  { lx with
    rest := lexeme.rest
    position := lx.onset + Text.byteLength lexeme.chars
    start := lx.onset }

theorem next_ending (blank : lx.rest.dropWhile Text.isBlank = []) :
    lx.next = (.ok ⟨.ending,⟨lx.onset,lx.onset⟩⟩,{ lx with
      rest := [], position := lx.onset, start := lx.onset, current := ⟨.ending,⟨lx.onset,lx.onset⟩⟩ }) := by
  unfold next
  rw [blank]
  rfl

theorem next_token {c : Char} {cs : List Char} {kind : TokenKind}
    (skipped : lx.rest.dropWhile Text.isBlank = c :: cs)
    (is : (Lexeme.scan c cs).outcome = .ok kind) :
    lx.next = (.ok ⟨kind,⟨lx.onset,(lx.pass (Lexeme.scan c cs)).position⟩⟩,
      { lx.pass (Lexeme.scan c cs) with
        current := ⟨kind,⟨lx.onset,(lx.pass (Lexeme.scan c cs)).position⟩⟩ }) := by
  unfold next
  rw [skipped]
  dsimp only
  rw [is]
  rfl

theorem next_fault {c : Char} {cs : List Char} {cause : Cause}
    (skipped : lx.rest.dropWhile Text.isBlank = c :: cs)
    (is : (Lexeme.scan c cs).outcome = .error cause) :
    lx.next = (.error ⟨cause,⟨lx.onset,(lx.pass (Lexeme.scan c cs)).position⟩⟩,
      lx.pass (Lexeme.scan c cs)) := by
  unfold next
  rw [skipped]
  dsimp only
  rw [is]
  rfl

theorem scan_shortens_rest {c : Char} {cs : List Char}
    (skipped : lx.rest.dropWhile Text.isBlank = c :: cs) :
    (Lexeme.scan c cs).rest.length < lx.rest.length := by
  have shorter := (List.dropWhile_sublist (p := Text.isBlank) (l := lx.rest)).length_le
  rw [skipped,List.length_cons] at shorter
  have scanned := Lexeme.scan_shortens c cs
  omega

theorem collect_shape (steps : Nat) (enough : lx.rest.length < steps) :
    ∃ (tokens : List Token) (reading : Except Fault Token),
      collect steps lx = tokens.map .ok ++ [reading] ∧
      (∀ token ∈ tokens, token.kind ≠ .ending) ∧
      ∀ token, reading = .ok token → token.kind = .ending := by
  induction steps generalizing lx with
  | zero => omega
  | succ steps ih =>
    unfold collect
    cases skipped : lx.rest.dropWhile Text.isBlank with
    | nil =>
      rw [next_ending skipped]
      refine ⟨[],_,rfl,by simp,?_⟩
      intro token same
      cases same
      rfl
    | cons c cs =>
      cases outcome : (Lexeme.scan c cs).outcome with
      | error cause =>
        rw [next_fault skipped outcome]
        exact ⟨[],_,rfl,by simp,by simp⟩
      | ok kind =>
        have inside : kind ≠ .ending := by
          rintro rfl
          exact Lexeme.scan_spellable c cs outcome
        have shorter := scan_shortens_rest skipped
        rw [next_token skipped outcome]
        obtain ⟨tokens,reading,split,plain,final⟩ := @ih { lx.pass (Lexeme.scan c cs) with current := _ }
          (Nat.lt_of_lt_of_le shorter (Nat.le_of_lt_succ enough))
        dsimp only
        rw [if_neg inside,split]
        refine ⟨_ :: tokens,reading,rfl,?_,final⟩
        intro token present
        rcases List.mem_cons.mp present with rfl | later
        · exact inside
        · exact plain token later

theorem collect_ok_iff (steps : Nat) (enough : lx.rest.length < steps) (tokens : List Token) :
    collect steps lx = tokens.map .ok ↔ Scans lx.position lx.rest tokens := by
  induction steps generalizing lx tokens with
  | zero => omega
  | succ steps ih =>
    unfold collect
    cases skipped : lx.rest.dropWhile Text.isBlank with
    | nil =>
      rw [next_ending skipped]
      constructor
      · intro same
        obtain ⟨token,others,rfl,one,none⟩ := List.map_eq_cons_iff.mp same.symm
        cases one
        cases List.map_eq_nil_iff.mp none
        exact .done skipped rfl
      · intro scanned
        cases scanned with
        | done blank stops => rw [stops]; rfl
        | lexeme more => rw [skipped] at more; cases more
    | cons c cs =>
      cases outcome : (Lexeme.scan c cs).outcome with
      | error cause =>
        rw [next_fault skipped outcome]
        constructor
        · intro same
          obtain ⟨token,others,_,one,_⟩ := List.map_eq_cons_iff.mp same.symm
          cases one
        · intro scanned
          cases scanned with
          | done blank => rw [skipped] at blank; cases blank
          | lexeme more starts is =>
            rw [skipped] at more
            cases more
            cases outcome.symm.trans is
      | ok kind =>
        -- No lexeme is the end, so the steps go on behind this one.
        have inside : kind ≠ .ending := by
          rintro rfl
          exact Lexeme.scan_spellable c cs outcome
        have shorter := scan_shortens_rest skipped
        rw [next_token skipped outcome]
        let token : Token := ⟨kind,⟨lx.onset,(lx.pass (Lexeme.scan c cs)).position⟩⟩
        have further := @ih { lx.pass (Lexeme.scan c cs) with current := token }
          (Nat.lt_of_lt_of_le shorter (Nat.le_of_lt_succ enough))
        dsimp only
        rw [if_neg inside]
        constructor
        · intro same
          obtain ⟨token,others,rfl,one,more⟩ := List.map_eq_cons_iff.mp same.symm
          cases one
          exact .lexeme skipped rfl outcome rfl ((further others).mp more.symm)
        · intro scanned
          cases scanned with
          | done blank => rw [skipped] at blank; cases blank
          | @lexeme _ _ _ _ _ start stop others more starts is stops scannedRest =>
            rw [skipped] at more
            cases more
            cases outcome.symm.trans is
            subst stops starts
            rw [(further others).mpr scannedRest]
            rfl

theorem mapM_id_ok_iff {readings : List (Except Fault Token)} {tokens : List Token} :
    readings.mapM id = .ok tokens ↔ readings = tokens.map .ok := by
  induction readings generalizing tokens with
  | nil => cases tokens <;> simp [pure,Except.pure]
  | cons reading readings ih =>
    rw [List.mapM_cons]
    cases reading with
    | error fault => cases tokens <;> simp [bind,Except.bind]
    | ok token =>
      cases rest : readings.mapM id with
      | error fault =>
        cases tokens with
        | nil => simp [bind,Except.bind]
        | cons first others =>
          have differs : readings ≠ others.map .ok := by
            intro same
            cases rest.symm.trans (ih.mpr same)
          simp [bind,Except.bind,differs]
      | ok others =>
        rw [ih.mp rest]
        constructor
        · intro same
          cases same
          rfl
        · intro same
          have exactly := (List.map_inj_right (l := token :: others) fun _ _ => Except.ok.inj).mp same
          rw [← exactly]
          rfl

theorem tokenize_ok_iff (text : String) (tokens : List Token) :
    tokenize text = .ok tokens ↔ Scans 0 text.toList tokens := by
  rw [tokenize,mapM_id_ok_iff,readings]
  exact collect_ok_iff _ (Nat.lt_succ_self _) tokens

end Lexer

def Cause.isLexical : Cause → Bool
  | .invalidCharacter _ | .malformedNumber _ | .numberOverflow _ | .unterminatedText | .nameEndsInDot _
  | .invalidOperator _ => true
  | _ => false

namespace Lexeme

variable {cause : Cause}

theorem intKind_lexical {body : List Char} (failed : intKind body = .error cause) : cause.isLexical := by
  unfold intKind at failed
  split at failed <;> cases failed
  rfl

theorem decimalKind_lexical {body : List Char} (failed : decimalKind body = .error cause) :
    cause.isLexical := by
  unfold decimalKind at failed
  split at failed
  · cases failed; rfl
  · dsimp only at failed
    split at failed <;> cases failed
    rfl

theorem floatingKind_lexical {f : Binary.Format} {make : Nat → TokenKind} {body : List Char}
    (failed : floatingKind f make body = .error cause) : cause.isLexical := by
  unfold floatingKind at failed
  split at failed
  · cases failed; rfl
  · split at failed <;> cases failed
    rfl

theorem ofNumber_lexical {cs : List Char} (failed : (ofNumber cs).outcome = .error cause) :
    cause.isLexical := by
  obtain ⟨_,_,_,_,parts⟩ := numberParts cs
  rw [parts.eq,ofParts_outcome] at failed
  unfold numberKind at failed
  split at failed
  · exact decimalKind_lexical failed
  split at failed
  · exact floatingKind_lexical failed
  split at failed
  · exact intKind_lexical failed
  · exact floatingKind_lexical failed

theorem ofName_lexical {cs : List Char} (failed : (ofName cs).outcome = .error cause) : cause.isLexical := by
  simp only [ofName] at failed
  split at failed
  · cases failed; rfl
  · split at failed
    · cases failed
    · split at failed <;> cases failed

theorem ofText_lexical {cs : List Char} (failed : (ofText cs).outcome = .error cause) : cause.isLexical := by
  unfold ofText at failed
  split at failed <;> cases failed
  rfl

theorem ofComparison_lexical {c : Char} {cs : List Char} (failed : (ofComparison c cs).outcome = .error cause) :
    cause.isLexical := by
  unfold ofComparison at failed
  split at failed
  · cases failed
  · split at failed
    · dsimp only at failed
      split at failed <;> cases failed
      rfl
    · cases failed

theorem paired_ok (c second : Char) (alone both : TokenKind) (cs : List Char) :
    ∃ kind, (paired c second alone both cs).outcome = .ok kind := by
  unfold paired
  split
  · exact ⟨_,rfl⟩
  · split <;> exact ⟨_,rfl⟩

theorem scan_lexical {c : Char} {cs : List Char} (failed : (scan c cs).outcome = .error cause) :
    cause.isLexical := by
  have scanned := scanner c
  generalize scan c = scanner at scanned failed
  cases scanned with
  | single => cases failed
  | bang | bar | ampersand =>
    obtain ⟨kind,formed⟩ := paired_ok _ _ _ _ cs
    cases formed.symm.trans failed
  | comparison => exact ofComparison_lexical failed
  | text => exact ofText_lexical failed
  | number => exact ofNumber_lexical failed
  | name => exact ofName_lexical failed
  | invalid => cases failed; rfl

end Lexeme

namespace Lexer

theorem collect_lexical (steps : Nat) (lx : Lexer) {fault : Fault} (present : .error fault ∈ collect steps lx) :
    fault.cause.isLexical := by
  induction steps generalizing lx with
  | zero => cases present
  | succ steps ih =>
    unfold collect at present
    cases skipped : lx.rest.dropWhile Text.isBlank with
    | nil =>
      rw [next_ending skipped] at present
      simp at present
    | cons c cs =>
      cases outcome : (Lexeme.scan c cs).outcome with
      | error cause =>
        rw [next_fault skipped outcome] at present
        cases List.mem_singleton.mp present
        exact Lexeme.scan_lexical outcome
      | ok kind =>
        rw [next_token skipped outcome] at present
        dsimp only at present
        split at present
        · simp at present
        · rcases List.mem_cons.mp present with same | later
          · cases same
          · exact ih _ later

theorem readings_lexical {text : String} {fault : Fault} (present : .error fault ∈ readings text) :
    fault.cause.isLexical :=
  collect_lexical _ _ present

end Lexer
end TypedFormula
