import TypedFormula.Proofs.Cutting
import TypedFormula.Proofs.DecimalText
import TypedFormula.Proofs.FloatText

namespace TypedFormula

def Value.reread : Value → Value
  | .decimal d => .decimal d.shown
  | value => value

-- The token of a literal. There is none for the other values.
def TokenKind.ofValue : Value → TokenKind
  | .bool b => .bool b
  | .int n => .int n
  | .float x => .float x
  | .double x => .double x
  | .decimal d => .decimal d
  | .text s => .text s
  | .unit | .object _ => .beginning

theorem TokenKind.ofValue_literal {kind : TokenKind} {value : Value} (is : kind.literal? = some value) :
    TokenKind.ofValue value = kind := by
  cases kind <;> cases is <;> rfl

theorem TokenKind.literal_ofValue {value : Value} (spellable : (TokenKind.ofValue value).Spellable) :
    (TokenKind.ofValue value).literal? = some value := by
  cases value <;> first | rfl | exact spellable.elim

theorem TokenKind.spellable_reread (value : Value) :
    (TokenKind.ofValue value.reread).Spellable ↔ (TokenKind.ofValue value).Spellable := by
  cases value with
  | decimal d => rw [Value.reread,ofValue,ofValue,Spellable,Spellable,d.shown_negative]
  | _ => exact Iff.rfl

namespace Lexeme

def endsLiteral (c : Char) : Bool := endsNumber c && !continuesName c

end Lexeme

namespace Lexer

variable {rest : List Char} {kinds : List TokenKind}

theorem Cuts.int {n : Int32} (unsigned : 0 ≤ n.toInt)
    (stops : ∀ c, rest.head? = some c → Lexeme.endsNumber c = true) (cuts : Cuts rest kinds) :
    Cuts ((Value.intText n).toList ++ rest) (.int n :: kinds) := by
  obtain ⟨m,value⟩ := Int.eq_ofNat_of_zero_le unsigned
  have digits : (Value.intText n).toList = Nat.toDigits 10 m := by
    rw [Value.intText,value]
    exact Nat.toList_repr
  have kind : Lexeme.intKind (Nat.toDigits 10 m) = .ok (.int n) := by
    have small := n.toInt_lt
    unfold Lexeme.intKind
    rw [digitsValue_toDigits,if_pos (by unfold maxInt; omega)]
    rw [← Int32.ofInt_toInt n,value]
    rfl
  have scanned := Lexeme.ofNumber_whole (isDigit_toDigits (n := m)) stops
  rw [digits]
  obtain ⟨c,cs,split⟩ := List.exists_cons_of_ne_nil (Nat.toDigits_ne_nil (n := m) (b := 10))
  have digit : c.isDigit = true := isDigit_toDigits (n := m) c (by rw [split]; exact List.mem_cons_self)
  rw [split] at scanned kind ⊢
  rw [kind,List.cons_append,← Lexeme.scan_number digit] at scanned
  rw [List.cons_append]
  exact .lexeme (Lexeme.isBlank_of_isDigit digit) (by rw [scanned]) (by rw [scanned]) cuts

theorem Cuts.pointed {whole fraction suffix : List Char} {kind : TokenKind} (form : IsPointed whole fraction)
    (scanned : Lexeme.ofNumber (whole ++ '.' :: (fraction ++ (suffix ++ rest))) =
      ⟨.ok kind,whole ++ '.' :: fraction ++ suffix,rest⟩) (cuts : Cuts rest kinds) :
    Cuts (whole ++ '.' :: (fraction ++ suffix) ++ rest) (kind :: kinds) := by
  obtain ⟨c,cs,rfl⟩ := List.exists_cons_of_ne_nil form.filled
  have digit := form.isWhole c List.mem_cons_self
  rw [List.cons_append,← Lexeme.scan_number digit] at scanned
  rw [List.append_assoc,List.cons_append,List.cons_append,List.append_assoc]
  exact .lexeme (Lexeme.isBlank_of_isDigit digit) (by rw [scanned]) (by rw [scanned]) cuts

theorem Cuts.literal {value : Value} (spellable : (TokenKind.ofValue value).Spellable)
    (stops : ∀ c, rest.head? = some c → Lexeme.endsLiteral c = true) (cuts : Cuts rest kinds) :
    Cuts ((Expr.literalText value).toList ++ rest) (.ofValue value.reread :: kinds) := by
  have number : ∀ c, rest.head? = some c → Lexeme.endsNumber c = true :=
    fun c first => (Bool.and_eq_true_iff.mp (stops c first)).1
  have word : ∀ c, rest.head? = some c → Lexeme.continuesName c = false :=
    fun c first => by simpa using (Bool.and_eq_true_iff.mp (stops c first)).2
  cases value with
  | unit => exact spellable.elim
  | object o => exact spellable.elim
  | bool b => exact .bool b word cuts
  | int n => exact .int spellable number cuts
  | float x =>
    obtain ⟨bits,finite,rfl⟩ := spellable
    have same := Lexeme.toBits_floatOf finite
    obtain ⟨whole,fraction,split,form,kind⟩ := Lexeme.printed_parts Binary.moderate_binary32 finite
      (.float ∘ Lexeme.floatOf) "f"
    rw [Expr.literalText,Value.floatText,same,split]
    exact .pointed form (Lexeme.ofNumber_float form kind) cuts
  | double x =>
    obtain ⟨bits,finite,rfl⟩ := spellable
    have same := Lexeme.toBits_doubleOf finite
    obtain ⟨whole,fraction,split,form,kind⟩ := Lexeme.printed_parts Binary.moderate_binary64 finite
      (.double ∘ Lexeme.doubleOf) ""
    rw [Expr.literalText,Value.doubleText,same,split]
    refine @Cuts.pointed _ _ whole fraction [] _ form ?_ cuts
    rw [List.append_nil]
    exact Lexeme.ofNumber_double form number kind
  | decimal d =>
    obtain ⟨whole,fraction,split,form,kind⟩ := Decimal.printed_parts spellable
    rw [Expr.literalText,split]
    exact .pointed form (Lexeme.ofNumber_decimal form kind) cuts
  | text s =>
    have read := Cuts.text s.toList spellable cuts
    rw [String.ofList_toList] at read
    rw [Expr.literalText,String.toList_ofList]
    exact read

end Lexer
end TypedFormula
