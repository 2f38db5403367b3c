import TypedFormula.Proofs.CutTokens

namespace TypedFormula

open Text

def gist : Except Fault Token → Except Cause TokenKind
  | .ok token => .ok token.kind
  | .error fault => .error fault.cause

namespace Lexer

-- With steps enough, only the text that is left counts, and blanks in front of it do not.
theorem collect_gists {lx other : Lexer} (steps more : Nat) (enough : lx.rest.length < steps)
    (enoughMore : other.rest.length < more) (same : lx.rest.dropWhile isBlank = other.rest.dropWhile isBlank) :
    (collect steps lx).map gist = (collect more other).map gist := by
  induction steps generalizing lx other more with
  | zero => omega
  | succ steps ih =>
    obtain ⟨more,rfl⟩ : ∃ n, more = n + 1 := ⟨more - 1,by omega⟩
    rw [collect_succ,collect_succ]
    cases skipped : lx.rest.dropWhile isBlank with
    | nil =>
      rw [next_ending skipped,next_ending (same.symm.trans skipped)]
      rfl
    | cons c cs =>
      have skippedOther := same.symm.trans skipped
      cases outcome : (Lexeme.scan c cs).outcome with
      | error cause =>
        rw [next_fault skipped outcome,next_fault skippedOther outcome]
        rfl
      | ok kind =>
        rw [next_token skipped outcome,next_token skippedOther outcome]
        have inside : kind ≠ .ending := by
          rintro rfl
          exact Lexeme.scan_spellable c cs outcome
        have shorter := scan_shortens_rest skipped
        have shorterOther := scan_shortens_rest skippedOther
        dsimp only
        rw [if_neg inside,if_neg inside,List.map_cons,List.map_cons]
        refine congrArg₂ List.cons rfl (ih more ?_ ?_ rfl)
        · exact Nat.lt_of_lt_of_le shorter (Nat.le_of_lt_succ enough)
        · exact Nat.lt_of_lt_of_le shorterOther (Nat.le_of_lt_succ enoughMore)

def gists (cs : List Char) : List (Except Cause TokenKind) := (readings (String.ofList cs)).map gist

variable {c : Char} {cs rest : List Char} {kind : TokenKind}

theorem gists_of_collect {lx : Lexer} {steps : Nat} (enough : lx.rest.length < steps)
    (same : lx.rest.dropWhile isBlank = cs.dropWhile isBlank) : (collect steps lx).map gist = gists cs := by
  refine collect_gists steps _ enough (Nat.lt_succ_self _) ?_
  rw [same,ofSource,String.toList_ofList]

theorem gists_blanks (blank : ∀ c ∈ cs, isBlank c = true) : gists (cs ++ rest) = gists rest := by
  refine gists_of_collect (Nat.lt_succ_self _) ?_
  rw [ofSource,String.toList_ofList,List.dropWhile_append_of_pos blank]

theorem gists_lexeme (visible : isBlank c = false) (is : (Lexeme.scan c cs).outcome = .ok kind) :
    gists (c :: cs) = .ok kind :: gists (Lexeme.scan c cs).rest := by
  have skipped : (ofSource (String.ofList (c :: cs))).rest.dropWhile isBlank = c :: cs := by
    rw [ofSource,String.toList_ofList]
    exact List.dropWhile_cons_of_neg (by rw [visible]; exact Bool.false_ne_true)
  have inside : kind ≠ .ending := by
    rintro rfl
    exact Lexeme.scan_spellable c cs is
  have shorter := scan_shortens_rest skipped
  rw [gists,readings,collect_succ,next_token skipped is]
  dsimp only
  rw [if_neg inside,List.map_cons]
  exact congrArg₂ List.cons rfl (gists_of_collect shorter rfl)

theorem gists_single (is : Lexeme.single? c = some kind) (visible : isBlank c = false) :
    gists (c :: cs) = .ok kind :: gists cs := by
  have scanned : Lexeme.scan c cs = ⟨.ok kind,[c],cs⟩ := by
    unfold Lexeme.scan
    rw [is]
  have first : gists (c :: cs) = .ok kind :: gists (Lexeme.scan c cs).rest := gists_lexeme visible (by rw [scanned])
  rw [scanned] at first
  exact first

theorem gists_name {name : String} (isName : IsName name)
    (stops : ∀ d, rest.head? = some d → Lexeme.continuesName d = false) :
    gists (name.toList ++ rest) = .ok (.name name) :: gists rest := by
  obtain ⟨c,cs,split,starts⟩ := isName.starts
  have scanned := Lexeme.scan_isName_ahead isName split stops
  have first : gists (c :: (cs ++ rest)) = .ok (.name name) :: gists (Lexeme.scan c (cs ++ rest)).rest :=
    gists_lexeme (Lexeme.isBlank_of_startsName starts) (by rw [scanned])
  rw [scanned] at first
  rw [split]
  exact first

end Lexer
end TypedFormula
