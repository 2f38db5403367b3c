import TypedFormula.CommandLine.Run
import TypedFormula.Proofs.CaretColumns
import TypedFormula.Proofs.FaultSpans

namespace TypedFormula

open Text

theorem Lexer.mem_of_mapM {readings : List (Except Fault Token)} {fault : Fault}
    (failed : readings.mapM id = .error fault) : .error fault ∈ readings := by
  induction readings with
  | nil => cases failed
  | cons reading readings ih =>
    rw [List.mapM_cons] at failed
    cases reading with
    | error other =>
      cases failed
      exact List.mem_cons_self
    | ok token =>
      cases rest : readings.mapM id with
      | error other =>
        rw [rest] at failed
        cases failed
        exact List.mem_cons_of_mem _ (ih rest)
      | ok others =>
        rw [rest] at failed
        cases failed

namespace CommandLine

variable {σ : Type} {text : String} {d : Diagnostic} {limits : Limits}

-- Where a fault lies in a formula: from one boundary to another, or, if the formula is too long, from the limit
-- on to its end.
inductive Lies (formula : List Char) (d : Diagnostic) : Prop where
  | aligned (within : d.span.Aligned (IsBoundary formula)) : Lies formula d
  | tooLong (kind : d.kind = .formulaTooLong) (inside : d.span.start < byteLength formula)
      (toEnd : d.span.stop = byteLength formula) : Lies formula d

theorem parse_lies {registry : Registry σ} {fault : Fault}
    (failed : (Engine.parse registry none limits text).1 = .error fault) : Lies text.toList fault.diagnostic := by
  change (Parser.run _ limits text).1 = _ at failed
  rcases Nat.lt_or_ge limits.maxLength (byteLength text.toList) with long | short
  · rw [Parser.run_long long] at failed
    cases failed
    exact .tooLong rfl long rfl
  · exact .aligned ((Parser.short_points _ short).2 fault failed)

theorem evalReport_lies (failed : evalReport limits text = .failed d) : Lies text.toList d := by
  unfold evalReport at failed
  split at failed
  · rename_i fault refused
    cases failed
    unfold Engine.compile at refused
    split at refused
    · cases refused
    · rename_i other notes parsed
      cases refused
      exact parse_lies (congrArg Prod.fst parsed)
  · rename_i compiled accepted
    split at failed
    · cases failed
    · rename_i fault last stopped
      cases failed
      obtain ⟨parsed,_⟩ := Soundness.compile_succeeds (Prod.ext accepted rfl)
      have inTree := (Parser.parse_points _ limits text).1 _ parsed
      exact .aligned (CompiledFormula.evaluate_points inTree stopped)

theorem tokensReport_lies (failed : tokensReport text = .failed d) : Lies text.toList d := by
  unfold tokensReport at failed
  split at failed
  · rename_i fault refused
    cases failed
    exact .aligned (Span.Fills.aligned (Lexer.readings_lie text _ (Lexer.mem_of_mapM refused)))
  · cases failed

theorem printReport_lies (failed : printReport text = .failed d) : Lies text.toList d := by
  unfold printReport at failed
  split at failed
  · rename_i fault refused
    cases failed
    exact parse_lies refused
  · cases failed

theorem report_lies {action : Action} (failed : report action text = .failed d) : Lies text.toList d := by
  cases action with
  | eval limits => exact evalReport_lies failed
  | tokens => exact tokensReport_lies failed
  | print => exact printReport_lies failed

-- The formula and the fault of a run that fails and is not to be reported to programs.
def failure? (args : List String) (input : ByteArray) : Option (String × Diagnostic) :=
  match request args with
  | .invoke invocation =>
    if invocation.json then none
    else (formulaOf invocation.formula input).bind fun text =>
      match report invocation.action text with
      | .failed d => some (text,d)
      | _ => none
  | _ => none

variable {args : List String} {input : ByteArray}

theorem failure?_eq_some : failure? args input = some (text,d) ↔ ∃ invocation, request args = .invoke invocation ∧
    invocation.json = false ∧ formulaOf invocation.formula input = some text ∧
    report invocation.action text = .failed d := by
  unfold failure?
  cases request args with
  | usageError | help => simp
  | invoke invocation =>
    simp only [Request.invoke.injEq,exists_eq_left']
    cases invocation.json with
    | true => simp
    | false =>
      simp only [Bool.false_eq_true,if_false,true_and,Option.bind_eq_some_iff]
      constructor
      · rintro ⟨formula,given,failed⟩
        split at failed
        · rename_i fault reported
          cases failed
          exact ⟨given,reported⟩
        · cases failed
      · rintro ⟨given,failed⟩
        exact ⟨text,given,by rw [failed]⟩

theorem run_failing (failing : failure? args input = some (text,d)) : Lies text.toList d ∧
    run args input = ⟨1,"",d.rendered text ++ "\n"⟩ := by
  obtain ⟨invocation,requested,plain,given,failed⟩ := failure?_eq_some.mp failing
  refine ⟨report_lies failed,?_⟩
  rw [run,requested]
  dsimp only
  rw [given]
  dsimp only
  rw [failed,plain]
  rfl

-- What a line of carets is like, and when it underlines what is to be marked: that has to stand on the last line
-- of the formula, and each marked character as many columns from the margin as it has characters before it,
-- unless the fault starts inside a character. Then there is a single caret at the margin.
structure Carets (tab : Nat) (formula : List Char) (d : Diagnostic) (line : List Char) : Prop where
  drawn : ∀ c ∈ line, c = ' ' ∨ c = '^'
  aligned : IsBoundary formula d.span.start → (d.Underlines tab formula line ↔ ∀ k, d.Marks formula k →
    Diagnostic.OnLastLine formula k ∧ Diagnostic.shownColumn tab formula k = k + 2)
  cut : ¬IsBoundary formula d.span.start → d.kind = .formulaTooLong ∧ (d.Underlines tab formula line ↔
    ∀ k, d.Marks formula k → Diagnostic.OnLastLine formula k ∧ Diagnostic.shownColumn tab formula k = 2)
  plain : (∀ k, d.Marks formula k → ∀ c ∈ formula.take k, c ≠ '\n' ∧ c ≠ '\t') →
    (d.Underlines tab formula line ↔ '\n' ∉ formula ∧ (IsBoundary formula d.span.start ∨ formula.length = 1))

theorem carets_exact {tab : Nat} (positive : 0 < tab) (failing : failure? args input = some (text,d)) :
    ∃ line, run args input = ⟨1,"","error: " ++ d.message ++ "\n  " ++ text ++ "\n" ++ line ++ "\n"⟩ ∧
      Carets tab text.toList d line.toList := by
  obtain ⟨lies,ran⟩ := run_failing failing
  rw [Diagnostic.rendered_lines] at ran
  refine ⟨_,ran,?_⟩
  rw [String.toList_ofList]
  generalize text.toList = formula at *
  constructor
  case drawn => exact Diagnostic.mem_caretLine
  case aligned =>
    intro boundary
    rw [Diagnostic.Underlines,Diagnostic.sameColumns_aligned positive boundary]
    simp only [forall_and]
  case cut =>
    intro cut
    cases lies with
    | aligned within => exact absurd within.starts cut
    | tooLong kind inside toEnd =>
      refine ⟨kind,?_⟩
      rw [Diagnostic.Underlines,Diagnostic.sameColumns_cut inside cut]
      simp only [forall_and]
  case plain =>
    intro plain
    rw [Diagnostic.Underlines,Diagnostic.onLastLine_iff plain]
    refine and_congr_right fun _ => ?_
    by_cases boundary : IsBoundary formula d.span.start
    · rw [Diagnostic.sameColumns_aligned positive boundary]
      exact iff_of_true (fun k marks => Diagnostic.shownColumn_plain marks.le (plain k marks)) (.inl boundary)
    · cases lies with
      | aligned within => exact absurd within.starts boundary
      | tooLong kind inside toEnd =>
        rw [Diagnostic.sameColumns_cut_plain inside boundary toEnd plain,or_iff_right boundary]

theorem accented_carets : failure? ["tokens","\"é\" + $"] .empty =
      some ("\"é\" + $",⟨.invalidCharacter,"invalid character '$'",⟨7,8⟩⟩) ∧
    ∃ line, run ["tokens","\"é\" + $"] .empty =
        ⟨1,"","error: " ++ "invalid character '$'" ++ "\n  " ++ "\"é\" + $" ++ "\n" ++ line ++ "\n"⟩ ∧
      Carets 8 "\"é\" + $".toList ⟨.invalidCharacter,"invalid character '$'",⟨7,8⟩⟩ line.toList := by
  have failing : failure? ["tokens","\"é\" + $"] .empty =
      some ("\"é\" + $",⟨.invalidCharacter,"invalid character '$'",⟨7,8⟩⟩) := by decide +kernel
  have shown := carets_exact (show 0 < 8 by decide) failing
  exact ⟨failing,shown⟩

-- A limit inside a character and an end of line on either side of a marked character each leave it without a
-- caret directly below.
theorem carets_amiss :
    (failure? ["eval","--max-len","2","aé"] .empty =
        some ("aé",⟨.formulaTooLong,"formula is 3 bytes long; the limit is 2",⟨2,3⟩⟩) ∧
      run ["eval","--max-len","2","aé"] .empty =
        ⟨1,"","error: formula is 3 bytes long; the limit is 2\n  aé\n  ^\n"⟩ ∧
      ∀ tab, ¬Diagnostic.Underlines tab ⟨.formulaTooLong,"formula is 3 bytes long; the limit is 2",⟨2,3⟩⟩
        "aé".toList "  ^".toList) ∧
    (failure? ["eval","1 +\n$"] .empty = some ("1 +\n$",⟨.invalidCharacter,"invalid character '$'",⟨4,5⟩⟩) ∧
      run ["eval","1 +\n$"] .empty = ⟨1,"","error: invalid character '$'\n  1 +\n$\n      ^\n"⟩ ∧
      ∀ tab, ¬Diagnostic.Underlines tab ⟨.invalidCharacter,"invalid character '$'",⟨4,5⟩⟩
        "1 +\n$".toList "      ^".toList) ∧
    failure? ["eval","$\n  1"] .empty = some ("$\n  1",⟨.invalidCharacter,"invalid character '$'",⟨0,1⟩⟩) ∧
      run ["eval","$\n  1"] .empty = ⟨1,"","error: invalid character '$'\n  $\n  1\n  ^\n"⟩ ∧
      ∀ tab, ¬Diagnostic.Underlines tab ⟨.invalidCharacter,"invalid character '$'",⟨0,1⟩⟩
        "$\n  1".toList "  ^".toList := by
  refine ⟨⟨by decide +kernel,by decide +kernel,?_⟩,⟨by decide +kernel,by decide +kernel,?_⟩,by decide +kernel,
    by decide +kernel,?_⟩
  · rintro tab ⟨_,same⟩
    cases (same 3).mpr ⟨1,by decide,rfl⟩
  · rintro tab ⟨_,same⟩
    have := (same 0).mpr ⟨4,by decide,rfl⟩
    exact absurd this (by decide)
  · rintro tab ⟨last,_⟩
    exact last 0 (by decide) (by decide)

end CommandLine
end TypedFormula
