import TypedFormula.Expr.Print
import TypedFormula.Proofs.CutTokens

namespace TypedFormula

open Text

namespace Lexeme

theorem quote_of_text {c : Char} {cs : List Char} {s : String} (is : (scan c cs).outcome = .ok (.text s)) :
    c = '"' := by
  have scanned := scanner c
  generalize scan c = scanner at scanned is
  cases scanned with
  | text => rfl
  | single found =>
    cases is
    cases single_ok found
  | bang | bar | ampersand => rcases paired_kinds is with none | none <;> cases none
  | comparison => cases ofComparison_ok is
  | number => rcases ofNumber_ok is with ⟨_,none⟩ | ⟨_,none⟩ | ⟨_,none⟩ | ⟨_,none⟩ <;> cases none
  | name => rcases ofName_ok is with ⟨_,none⟩ | ⟨_,none⟩ <;> cases none
  | invalid => cases is

theorem chars_of_text {c : Char} {cs : List Char} {s : String} (is : (scan c cs).outcome = .ok (.text s)) :
    s.toList.getLast? ≠ some '\\' ∧ (scan c cs).chars = Quoted.literal s.toList := by
  obtain rfl := quote_of_text is
  rw [scan_text] at is
  obtain ⟨payload,rest,rfl,noLast,same⟩ := ofText_ok is
  cases same
  rw [String.toList_ofList]
  exact ⟨noLast,congrArg chars (ofText_encode payload rest noLast)⟩

end Lexeme

namespace Lexer

theorem tokenize_literal {s : String} (noLast : s.toList.getLast? ≠ some '\\') :
    tokenize (Expr.literalText (.text s)) = .ok [⟨.text s,⟨0,byteLength (Quoted.literal s.toList)⟩⟩,
      .endAt (byteLength (Quoted.literal s.toList))] := by
  have scanned := Lexeme.ofText_encode s.toList [] noLast
  rw [String.ofList_toList] at scanned
  exact tokenize_lexeme (by decide) scanned

-- A text that does not end in a backslash is written with a backslash in front of each quote, and this is
-- read as one token with the text. Wherever a token with a text is read, the text does not end in a backslash
-- and the token stands where this is written for it.
theorem texts_lossless :
    (∀ s : String, s.toList.getLast? ≠ some '\\' →
      (Expr.literalText (.text s)).toList =
        '"' :: (s.toList.flatMap fun c => if c = '"' then ['\\','"'] else [c]) ++ ['"'] ∧
      ∃ n, n = byteLength (Expr.literalText (.text s)).toList ∧
        tokenize (Expr.literalText (.text s)) = .ok [⟨.text s,⟨0,n⟩⟩,⟨.ending,⟨n,n⟩⟩]) ∧
    ∀ (source : String) (n : Nat) (s : String) (span : Span),
      (ofSource source).reading n = .ok ⟨.text s,span⟩ → s.toList.getLast? ≠ some '\\' ∧
        slice? source.toList span = some (Expr.literalText (.text s)).toList := by
  have printed : ∀ s, (Expr.literalText (.text s)).toList = Quoted.literal s.toList := fun _ => String.toList_ofList
  refine ⟨fun s noLast => ⟨printed s,_,rfl,?_⟩,fun source n s span read => ?_⟩
  · rw [printed]
    exact tokenize_literal noLast
  · obtain ⟨c,cs,scanned,sliced⟩ := reading_slice read TokenKind.noConfusion
    obtain ⟨noLast,chars⟩ := Lexeme.chars_of_text scanned
    rw [sliced,chars,printed]
    exact ⟨noLast,rfl⟩

-- Only the second of three backslashes escapes a quote here, and a fault in front changes nothing.
theorem escaped_quote_kept :
    (ofSource "# \"\\\\\"\\é\"").reading 1 = .ok ⟨.text "\\\"\\é",⟨2,10⟩⟩ ∧
    slice? "# \"\\\\\"\\é\"".toList ⟨2,10⟩ = some (Expr.literalText (.text "\\\"\\é")).toList ∧
    tokenize (Expr.literalText (.text "\\\"\\é")) = .ok [⟨.text "\\\"\\é",⟨0,8⟩⟩,⟨.ending,⟨8,8⟩⟩] := by
  have read : (ofSource "# \"\\\\\"\\é\"").reading 1 = .ok ⟨.text "\\\"\\é",⟨2,10⟩⟩ := rfl
  obtain ⟨written,standing⟩ := texts_lossless
  obtain ⟨noLast,sliced⟩ := standing _ _ _ _ read
  obtain ⟨_,n,length,tokens⟩ := written _ noLast
  refine ⟨read,sliced,?_⟩
  rw [tokens,length]
  rfl

end Lexer
end TypedFormula
