import TypedFormula.Proofs.Rereading
import TypedFormula.Proofs.ParsedTrees
import TypedFormula.Proofs.WholeFormulas
import TypedFormula.Builtins

namespace TypedFormula

variable {σ : Type}

theorem Lexer.Scans.front {position : Nat} {cs : List Char} {tokens : List Token}
    (scans : Scans position cs tokens) : ∃ front last, tokens = front ++ [last] ∧
      last.kind = .ending ∧ ∀ token ∈ front, token.kind.Spellable := by
  induction scans with
  | done => exact ⟨[],_,rfl,rfl,fun _ none => by cases none⟩
  | lexeme _ _ is _ _ ih =>
    obtain ⟨front,last,rfl,ends,spellable⟩ := ih
    refine ⟨_ :: front,last,rfl,ends,?_⟩
    intro token present
    rcases List.mem_cons.mp present with rfl | later
    · exact Lexeme.scan_spellable _ _ is
    · exact spellable token later

-- The same literal; decimals count by value, whatever their scale.
def Value.SameLiteral : Value → Value → Prop
  | .decimal d, .decimal e => d.same e = true
  | v, w => v = w

theorem Value.sameLiteral_reread (v : Value) : v.SameLiteral v.reread := by
  cases v with
  | decimal d => exact d.same_shown
  | _ => rfl

theorem Value.literalText_reread {v : Value} (spellable : (TokenKind.ofValue v).Spellable) :
    Expr.literalText v = Expr.literalText v.reread := by
  cases v with
  | decimal d => exact (Decimal.text_shown spellable).symm
  | _ => rfl

namespace Parser

open TypedFormula.Expr

variable {scope : Scope σ} {limits : Limits} {text : String} {t : Expr σ}

theorem parsed_tree (parsed : parse scope limits text = .ok t) : WellBound scope t ∧ Parsed scope t := by
  obtain ⟨_,⟨tokens,last,tokenized,reads⟩,_⟩ := parse_ok_iff.mp parsed
  refine ⟨WellBound.ofReads reads,parsed_ofReads reads ?_⟩
  obtain ⟨front,final,split,_,spellable⟩ := ((Lexer.tokenize_ok_iff _ _).mp tokenized).front
  rw [(List.append_inj' split rfl).1]
  exact spellable

theorem repeatable_of_parsed (parsed : parse scope limits text = .ok t)
    (applies : ∀ node ∈ t.nodes, node.Applies) (names : ∀ node ∈ t.nodes, node.NamesClear scope) :
    Repeatable scope t :=
  ⟨⟨(parsed_tree parsed).1,(parsed_tree parsed).2.legible,names⟩,applies⟩

theorem spellable_literal (parsed : parse scope limits text = .ok t) {v : Value} (has : t.HasLiteral v) :
    (TokenKind.ofValue v).Spellable := by
  obtain ⟨node,present,span,rfl⟩ := has
  exact (parsed_tree parsed).2.legible _ present

theorem print_tokenized (spellable : ∀ kind ∈ t.kinds, kind.Spellable) :
    ∃ tokens last, Lexer.tokenize t.print = .ok (tokens ++ [last]) ∧ tokens.map (·.kind) = t.kinds ∧
      last.kind = .ending := by
  have cuts : Lexer.Cuts (t.print.toList ++ []) (t.kinds ++ []) :=
    t.print_cuts spellable (fun _ none => by cases none) .nil
  rw [List.append_nil,List.append_nil] at cuts
  obtain ⟨tokens,scans,kinds⟩ := cuts 0
  obtain ⟨front,behind,rfl,isFront,isLast⟩ := List.map_eq_append_iff.mp kinds
  obtain ⟨last,rfl,ends⟩ := List.map_eq_singleton_iff.mp isLast
  exact ⟨front,last,(Lexer.tokenize_ok_iff _ _).mpr scans,isFront,ends⟩

theorem print_parses (parsed : parse scope limits text = .ok t) (repeatable : Repeatable scope t) :
    ∃ t', Alike Eq t.reread t' ∧ ∀ others : Limits, Text.byteLength t.print.toList ≤ others.maxLength →
      t.height ≤ others.maxDepth → t'.height ≤ others.maxHeight → parse scope others t.print = .ok t' := by
  obtain ⟨tokens,last,tokenized,kinds,ends⟩ := print_tokenized (parsed_tree parsed).2.spellable
  obtain ⟨t',alike,reads⟩ := (returns t repeatable t.height tokens (Nat.le_refl _) kinds).closed
  refine ⟨t',alike,?_⟩
  intro others short shallow low
  have read := reads last (.inr (.inr (.inr ends)))
  exact parse_ok_iff.mpr ⟨short,⟨tokens,last,tokenized,read.mono shallow⟩,low⟩

-- The printed form of a parsed tree is parsed to the same tree but for spans and the scale of decimals,
-- and that tree is printed in the same way.
theorem parse_print (scope : Scope σ) (limits : Limits) (text : String) (t : Expr σ)
    (parsed : parse scope limits text = .ok t) (operands : ∀ node ∈ t.nodes, node.OperandHolds)
    (names : ∀ node ∈ t.nodes, node.NamesClear scope) :
    ∃ t', (∀ others : Limits, Text.byteLength t.print.toList ≤ others.maxLength →
        t.height ≤ others.maxDepth → t.height ≤ others.maxHeight → parse scope others t.print = .ok t') ∧
      Alike Value.SameLiteral t t' ∧ t'.print = t.print := by
  have bound := (parsed_tree parsed).1
  have repeatable := repeatable_of_parsed parsed (applies_of_holds bound operands) names
  obtain ⟨t',alike,parses⟩ := print_parses parsed repeatable
  have onward : ∀ {lit : Value → Value → Prop}, (∀ v, t.HasLiteral v → lit v v.reread) → Alike lit t t' := by
    intro lit literals
    refine (alike_reread bound literals operands).trans ?_ alike
    rintro u v _ same rfl
    exact same
  have same : Alike Value.SameLiteral t t' := onward fun v _ => v.sameLiteral_reread
  have printed : Alike (fun v w => literalText v = literalText w) t t' :=
    onward fun v has => Value.literalText_reread (spellable_literal parsed has)
  refine ⟨t',?_,same,(printed.print fun _ _ equal => equal).symm⟩
  intro others short shallow low
  exact parses others short shallow (same.height ▸ low)

def box : TypeInfo Unit :=
  .ofDeclarations "Box" [.valueProperty "Size" .int fun _ => pure (.int 1),
    .valueProperty "Inner" (.object "Box") pure,.valueIndexer [.int] (.object "Box") fun v _ => pure v]

def boxScope : Scope Unit := ⟨Builtins.registry.insert box,some "Box"⟩

def boxHolds (text : String) : Bool :=
  match parse boxScope {} text with
  | .ok t => decide (∀ node ∈ t.nodes, node.OperandHolds ∧ node.NamesClear boxScope)
  | .error _ => false

def boxFormula : String := "-(Inner.Size + 1).ToString().Length * Inner[2].Inner.Size < Math.Abs(-3)"

theorem box_returns : ∃ t, parse boxScope {} boxFormula = .ok t ∧
    (∀ node ∈ t.nodes, node.OperandHolds) ∧ (∀ node ∈ t.nodes, node.NamesClear boxScope) ∧
    ∃ t', (∀ others : Limits, Text.byteLength t.print.toList ≤ others.maxLength →
        t.height ≤ others.maxDepth → t.height ≤ others.maxHeight → parse boxScope others t.print = .ok t') ∧
      Alike Value.SameLiteral t t' ∧ t'.print = t.print := by
  have checked : boxHolds boxFormula = true := by decide +kernel
  unfold boxHolds at checked
  split at checked
  · rename_i t parsed
    have both := of_decide_eq_true checked
    have operands := fun node present => (both node present).1
    have names := fun node present => (both node present).2
    exact ⟨t,parsed,operands,names,parse_print boxScope {} boxFormula t parsed operands names⟩
  · cases checked

end Parser
end TypedFormula
