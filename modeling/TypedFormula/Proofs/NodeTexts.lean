import TypedFormula.Proofs.NodeReadings
import TypedFormula.Proofs.SpanNesting

namespace TypedFormula

open Text

variable {σ : Type}

theorem Expr.height_of_mem {e node : Expr σ} (present : node ∈ e.nodes) : node.height ≤ e.height := by
  induction e using Expr.children_induction with
  | step e ih =>
    rw [Expr.nodes_eq] at present
    rcases List.mem_cons.mp present with rfl | below
    · exact Nat.le_refl _
    · obtain ⟨child,isChild,inside⟩ := List.mem_flatMap.mp below
      obtain ⟨limit,high⟩ : ∃ limit, e.height = limit + 1 := ⟨e.height - 1,by have := e.height_pos; omega⟩
      have lower := (Expr.height_le_iff_children e limit).mp (Nat.le_of_eq high) child isChild
      have reached := ih child isChild inside
      omega

namespace Row

variable {α : Type} {span : α → Span} {a b : Nat} {x : α} {xs : List α}

theorem start (row : Row span a (x :: xs) b) : Row span (span x).start (x :: xs) b := ⟨Nat.le_refl _,row.2⟩

end Row

theorem row_cut {boundary : Nat → Prop} {before front more : List Token} {token last : Token} {b : Nat}
    (row : Row Token.span 0 (before ++ (front ++ token :: more)) b) (cut : token.CutsTo last)
    (stands : ∀ t ∈ before ++ (front ++ token :: more), t.Stands boundary) :
    Row Token.span (ahead front last).span.start (front ++ [last]) last.span.stop ∧
      ∀ t ∈ front ++ [last], t.Stands boundary := by
  obtain ⟨m,_,row⟩ := Row.append_iff.mp row
  obtain ⟨n,first,behind,_,_⟩ := Row.append_iff.mp row
  obtain ⟨_,within⟩ := List.forall_mem_append.mp stands
  obtain ⟨within,further⟩ := List.forall_mem_append.mp within
  obtain ⟨final,_⟩ := (List.forall_mem_cons.mp further).1.cut cut
  have whole : Row Token.span m (front ++ [last]) last.span.stop :=
    Row.append_iff.mpr ⟨n,first,cut.start ▸ behind,Nat.le_of_lt final.fills.filled,rfl⟩
  refine ⟨?_,List.forall_mem_append.mpr ⟨within,List.forall_mem_singleton.mpr final⟩⟩
  cases front with
  | nil => exact whole.start
  | cons => exact whole.start

namespace Parser

-- No part of a dotted name in the formula is empty or a truth value.
def PlainNames (text : String) : Prop := ∀ tokens, Lexer.tokenize text = .ok tokens → ∀ token ∈ tokens,
  ∀ spelling, token.kind = .name spelling → ∀ piece ∈ pieces spelling, plainPart piece

instance (piece : String) : Decidable (plainPart piece) := inferInstanceAs (Decidable (_ ∧ _ ∧ _))

def plainNames (text : String) : Bool :=
  match Lexer.tokenize text with
  | .ok tokens => tokens.all fun token =>
    match token.kind with
    | .name spelling => (pieces spelling).all fun piece => decide (plainPart piece)
    | _ => true
  | .error _ => true

theorem plainNames_iff (text : String) : plainNames text = true ↔ PlainNames text := by
  unfold plainNames PlainNames
  cases Lexer.tokenize text with
  | error fault =>
    refine ⟨?_,fun _ => rfl⟩
    rintro _ _ ⟨⟩
  | ok tokens =>
    simp only [List.all_eq_true]
    constructor
    · rintro all _ ⟨⟩ token present spelling is piece isPiece
      have named := all token present
      rw [is] at named
      exact of_decide_eq_true (List.all_eq_true.mp named piece isPiece)
    · intro plain token present
      split
      · rename_i spelling is
        exact List.all_eq_true.mpr fun piece isPiece => decide_eq_true (plain tokens rfl token present spelling is piece isPiece)
      · rfl

instance (text : String) : Decidable (PlainNames text) := decidable_of_iff _ (plainNames_iff text)

-- Where no part of a name is empty or a truth value, every node of a parsed tree is what its own text is
-- parsed to, with the spans counted from the start of that text.
theorem node_reparsed (scope : Scope σ) (limits : Limits) (text : String) (e : Expr σ)
    (parsed : parse scope limits text = .ok e) (plain : PlainNames text) :
    ∀ node ∈ e.nodes, ∃ piece, Between text.toList node.span.start node.span.stop piece ∧
      ∃ e', parse scope limits (String.ofList piece) = .ok e' ∧ e'.move (· + node.span.start) = node := by
  intro node present
  obtain ⟨fits,⟨tokens,last,tokenized,reads⟩,low⟩ := parse_ok_iff.mp parsed
  have scans := (Lexer.tokenize_ok_iff _ _).mp tokenized
  obtain ⟨_,_,stop,_,_,split,row,stands,_⟩ := scans.row (splitsAt_zero _)
  obtain ⟨rfl,_⟩ := List.append_inj' split rfl
  obtain ⟨_,_,split,_,spellable⟩ := scans.front
  obtain ⟨rfl,_⟩ := List.append_inj' split rfl
  have names : ∀ token ∈ tokens, token.PlainParts := fun token inside spelling is =>
    ⟨(stands token inside).isName spelling is,plain _ tokenized token (List.mem_append_left _ inside) spelling is⟩
  obtain ⟨before,front,token,final,more,rfl,cut,nodeReads⟩ := reads.sources (Nat.le_refl _) names node present
  have inside : token.kind ≠ .ending := by
    intro ends
    have spelled := spellable token (by simp)
    rw [ends] at spelled
    exact spelled
  rw [List.append_assoc,List.append_assoc,List.cons_append] at scans
  obtain ⟨piece,between,moved⟩ := scans.piece inside cut
  obtain ⟨part,placed⟩ := row_cut row cut stands
  have alone := nodeReads (.endAt final.span.stop) rfl
  obtain ⟨nested,span,_⟩ := alone.reaches part placed
  rw [ahead_append] at span
  obtain ⟨begins,ends⟩ := Span.ends span
  have starts : ahead front (ahead [final] (.endAt final.span.stop)) = ahead front final := rfl
  rw [starts] at begins
  rw [begins,ends]
  -- The node is read from the tokens of the piece, which are those of the formula moved to the front.
  have ordered : Monotone (· - (ahead front final).span.start) := fun _ _ le => Nat.sub_le_sub_right le _
  have again := alone.move ordered fun t within => Token.moves_back (part.within within).1
  rw [List.append_cons,List.map_append] at moved
  have short : byteLength piece ≤ byteLength text.toList := by
    obtain ⟨_,splits,_⟩ := between
    have whole := splits.length
    rw [byteLength_append] at whole
    omega
  refine ⟨piece,between,node.move (· - (ahead front final).span.start),parse_ok_iff.mpr ⟨?_,⟨_,_,?_,again⟩,?_⟩,
    Expr.move_back node fun below is => ?_⟩
  · rw [String.toList_ofList]
    exact Nat.le_trans short fits
  · rw [Lexer.tokenize_ok_iff,String.toList_ofList]
    exact moved
  · rw [Expr.height_move]
    exact Nat.le_trans (Expr.height_of_mem present) low
  · obtain ⟨behind,_⟩ := nested.inside below is
    have filled := (nested below is).fills.filled
    omega

theorem padded_reparsed : PlainNames paddedFormula ∧ ∃ e, parse boxScope {} paddedFormula = .ok e ∧
    ∀ node ∈ e.nodes, ∃ piece, Between paddedFormula.toList node.span.start node.span.stop piece ∧
      ∃ e', parse boxScope {} (String.ofList piece) = .ok e' ∧ e'.move (· + node.span.start) = node := by
  have plain : PlainNames paddedFormula := by decide +kernel
  obtain ⟨e,parsed⟩ : ∃ e, parse boxScope {} paddedFormula = .ok e := exists_ok (by decide +kernel)
  exact ⟨plain,e,parsed,node_reparsed boxScope {} paddedFormula e parsed plain⟩

end Parser
end TypedFormula
