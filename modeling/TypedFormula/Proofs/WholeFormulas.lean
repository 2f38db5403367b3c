import TypedFormula.Proofs.Lexing
import TypedFormula.Proofs.RunsOfReadings
import TypedFormula.Proofs.Trees

namespace TypedFormula

variable {σ : Type}

namespace Lexer

theorem readings_shape (text : String) :
    ∃ (tokens : List Token) (reading : Except Fault Token),
      readings text = tokens.map .ok ++ [reading] ∧
      (∀ token ∈ tokens, token.kind ≠ .ending) ∧
      ∀ token, reading = .ok token → token.kind = .ending :=
  collect_shape _ (Nat.lt_succ_self _)

theorem tokenize_eq_iff (text : String) (tokens : List Token) :
    tokenize text = .ok tokens ↔ readings text = tokens.map .ok :=
  mapM_id_ok_iff

theorem readings_end (text : String) {tokens : List Token} {last : Token}
    {rest : List (Except Fault Token)} (split : readings text = tokens.map .ok ++ .ok last :: rest)
    (ends : last.kind = .ending) : rest = [] := by
  obtain ⟨init,reading,shape,plain,_⟩ := readings_shape text
  rw [split] at shape
  rcases List.eq_nil_or_concat rest with none | ⟨behind,final,rfl⟩
  · exact none
  · have same : tokens.map Except.ok ++ Except.ok last :: behind = init.map .ok := by
      have aligned : (tokens.map Except.ok ++ Except.ok last :: behind) ++ [final] =
          init.map .ok ++ [reading] := by simpa using shape
      exact List.append_inj_left' aligned rfl
    have present : Except.ok last ∈ init.map (Except.ok (ε := Fault)) := by
      rw [← same]
      simp
    obtain ⟨token,inInit,isLast⟩ := List.mem_map.mp present
    cases isLast
    exact absurd ends (plain _ inInit)

theorem tokenize_ending {text : String} {tokens : List Token} {last : Token}
    (tokenized : tokenize text = .ok (tokens ++ [last])) : last.kind = .ending := by
  obtain ⟨init,reading,split,_,ends⟩ := readings_shape text
  rw [tokenize_eq_iff,split,List.map_append] at tokenized
  exact ends last (List.singleton_inj.mp (List.append_inj_right' tokenized rfl))

end Lexer

namespace Parser

def start (text : String) : ParseState := ⟨.initial,Lexer.readings text,[]⟩

theorem start_proper (text : String) : Proper (start text) := by
  intro token final
  obtain ⟨tokens,reading,split,_,ends⟩ := Lexer.readings_shape text
  apply ends
  rw [ParseState.stream,start,split,List.getLast?_cons,List.getLast?_append] at final
  exact Option.some.inj final

variable {scope : Scope σ} {limits : Limits} {text : String} {e : Expr σ}

-- The first step leaves the beginning and arrives at the first token.
theorem start_bump {after : ParseState} (ran : Parse.bump (start text) = .ok () after) :
    after.stream = Lexer.readings text ∧ Proper after := by
  have inside : (start text).current.kind ≠ .ending := TokenKind.noConfusion
  have moved := bump_consumes (start_proper text) inside ran
  refine ⟨?_,moved.proper (start_proper text)⟩
  exact ((List.cons.inj moved).2).symm

theorem formula_reads {last : ParseState} (ran : formula scope limits text (start text) = .ok e last) :
    (∃ tokens last, Lexer.tokenize text = .ok (tokens ++ [last]) ∧
      Reads scope limits.maxDepth (.layered BinaryOp.layers e) tokens last) ∧
    e.height ≤ limits.maxHeight := by
  unfold formula at ran
  obtain ⟨_,after,bumped,ran⟩ := bind_succeeds.mp ran
  obtain ⟨stream,proper⟩ := start_bump bumped
  obtain ⟨found,behind,ranWhole,ran⟩ := bind_succeeds.mp ran
  obtain ⟨token,_,ranToken,ran⟩ := bind_succeeds.mp ran
  obtain ⟨rfl,rfl⟩ := Parse.current_succeeds.mp ranToken
  obtain ⟨tokens,consumed,reads⟩ := within_reads _ _ _ _ _ proper ranWhole
  split at ran
  · obtain ⟨_,_,thrown,_⟩ := bind_succeeds.mp ran
    exact (throw_succeeds.mp thrown).elim
  rename_i ended
  have ends : behind.current.kind = .ending := Decidable.not_not.mp ended
  have exhausted : behind.rest = [] :=
    Lexer.readings_end text (by rw [← stream]; exact consumed) ends
  have tokenized : Lexer.tokenize text = .ok (tokens ++ [behind.current]) := by
    rw [Lexer.tokenize_eq_iff,← stream,consumed,ParseState.stream,exhausted,List.map_append]
    rfl
  dsimp only at ran
  generalize deep : found.firstDeeperThan limits.maxHeight = place at ran
  cases place with
  | some span => exact (throw_succeeds.mp ran).elim
  | none =>
    obtain ⟨_,_,_,ran⟩ := bind_succeeds.mp ran
    obtain ⟨rfl,_⟩ := pure_succeeds.mp ran
    exact ⟨⟨tokens,_,tokenized,reads⟩,(Expr.firstDeeperThan_none_iff _ _).mp deep⟩

theorem formula_runs (tokens : List Token) (last : Token)
    (tokenized : Lexer.tokenize text = .ok (tokens ++ [last]))
    (reads : Reads scope limits.maxDepth (.layered BinaryOp.layers e) tokens last)
    (low : e.height ≤ limits.maxHeight) :
    ∃ final, formula scope limits text (start text) = .ok e final := by
  have ends := Lexer.tokenize_ending tokenized
  have ran : Yields (formula scope limits text) (.initial :: tokens) last e := by
    refine .bump_bind ?_
    rw [← List.append_nil tokens]
    refine .bind (within_performs (performs reads)) (.current_bind ?_)
    rw [if_neg (show ¬ (ahead [] last).kind ≠ .ending from not_not_intro ends)]
    dsimp only
    rw [(Expr.firstDeeperThan_none_iff _ _).mpr low]
    refine .binding_bind (?_ : Binding.Agrees _ (some ())) rfl (.pure _ _)
    intro notes _
    exact ⟨fun _ => rfl,fun _ => ⟨_,rfl⟩⟩
  refine ⟨_,(ran (start text) [] (start_proper text) ?_).choose_spec⟩
  rw [Lexer.tokenize_eq_iff] at tokenized
  rw [ParseState.stream,start,tokenized,List.map_append]
  rfl

theorem parse_ok_iff : parse scope limits text = .ok e ↔
    Text.byteLength text.toList ≤ limits.maxLength ∧
    (∃ tokens last, Lexer.tokenize text = .ok (tokens ++ [last]) ∧
      Reads scope limits.maxDepth (.layered BinaryOp.layers e) tokens last) ∧
    e.height ≤ limits.maxHeight := by
  unfold parse run
  dsimp only
  split
  · rename_i long
    constructor
    · intro failed; cases failed
    · rintro ⟨fits,_⟩; omega
  · rename_i fits
    constructor
    · intro ran
      split at ran
      · rename_i found last ranFormula
        cases ran
        obtain ⟨reads,low⟩ := formula_reads ranFormula
        exact ⟨Nat.le_of_not_lt fits,reads,low⟩
      · cases ran
    · rintro ⟨_,⟨tokens,last,tokenized,reads⟩,low⟩
      obtain ⟨final,ran⟩ := formula_runs tokens last tokenized reads low
      rw [show (⟨.initial,Lexer.readings text,[]⟩ : ParseState) = start text from rfl,ran]

end Parser
end TypedFormula
