import TypedFormula.Parser

namespace TypedFormula

theorem bind_succeeds {ε ρ α β : Type} {first : EStateM ε ρ α} {next : α → EStateM ε ρ β} {s last : ρ}
    {b : β} : (first >>= next) s = .ok b last ↔
      ∃ a middle, first s = .ok a middle ∧ next a middle = .ok b last := by
  change EStateM.bind first next s = .ok b last ↔ _
  unfold EStateM.bind
  cases first s with
  | ok a middle =>
    constructor
    · intro ran; exact ⟨a,middle,rfl,ran⟩
    · rintro ⟨_,_,same,ran⟩; cases same; exact ran
  | error fault middle => simp

theorem bind_run {ε ρ α β : Type} (first : EStateM ε ρ α) (next : α → EStateM ε ρ β) (s : ρ) :
    (first >>= next) s = match first s with
      | .ok a middle => next a middle
      | .error fault middle => .error fault middle :=
  rfl

theorem bind_fails {ε ρ α β : Type} {first : EStateM ε ρ α} {next : α → EStateM ε ρ β} {s last : ρ}
    {fault : ε} : (first >>= next) s = .error fault last ↔ first s = .error fault last ∨
      ∃ a middle, first s = .ok a middle ∧ next a middle = .error fault last := by
  rw [bind_run]
  cases first s with
  | ok a middle =>
    constructor
    · intro ran; exact .inr ⟨a,middle,rfl,ran⟩
    · rintro (failed | ⟨_,_,same,ran⟩)
      · cases failed
      · cases same; exact ran
  | error other middle => simp

theorem pure_succeeds {ε ρ α : Type} {a b : α} {s last : ρ} :
    (pure a : EStateM ε ρ α) s = .ok b last ↔ a = b ∧ s = last := by
  change EStateM.Result.ok a s = .ok b last ↔ _
  simp

theorem throw_succeeds {ε ρ α : Type} {fault : ε} {b : α} {s last : ρ} :
    (throw fault : EStateM ε ρ α) s = .ok b last ↔ False := by
  change EStateM.Result.error fault s = .ok b last ↔ _
  simp

theorem pure_fails {ε ρ α : Type} {a : α} {s last : ρ} {fault : ε} :
    (pure a : EStateM ε ρ α) s = .error fault last ↔ False := by
  change EStateM.Result.ok a s = .error fault last ↔ _
  simp

theorem bind_congr_ok {ε ρ α β : Type} {first : EStateM ε ρ α} {next following : α → EStateM ε ρ β}
    {s : ρ} (agree : ∀ a middle, first s = .ok a middle → next a middle = following a middle) :
    (first >>= next) s = (first >>= following) s := by
  rw [bind_run,bind_run]
  cases ran : first s with
  | ok a middle => exact agree a middle ran
  | error fault middle => rfl

theorem exists_ok {ε α : Type} {outcome : Except ε α} (good : outcome.isOk = true) :
    ∃ a, outcome = .ok a := by
  cases outcome with
  | ok a => exact ⟨a,rfl⟩
  | error => cases good

-- The fault of an outcome, which can be compared where results cannot.
def faultOf? {α : Type} : Except Fault α → Option Fault
  | .ok _ => none
  | .error fault => some fault

theorem faultOf_eq_some {α : Type} {outcome : Except Fault α} {fault : Fault}
    (failed : faultOf? outcome = some fault) : outcome = .error fault := by
  cases outcome with
  | ok => cases failed
  | error other => exact congrArg Except.error (Option.some.inj failed)

namespace Parse

theorem current_run {α : Type} (next : Token → Parse α) (s : ParseState) :
    (current >>= next) s = next s.current s :=
  rfl

theorem tokensLeft_run {α : Type} (next : Nat → Parse α) (s : ParseState) :
    (tokensLeft >>= next) s = next s.rest.length s :=
  rfl

theorem current_succeeds {s last : ParseState} {token : Token} :
    current s = .ok token last ↔ token = s.current ∧ s = last := by
  change EStateM.Result.ok s.current s = .ok token last ↔ _
  simp [eq_comm (a := token)]

theorem tokensLeft_succeeds {s last : ParseState} {n : Nat} :
    tokensLeft s = .ok n last ↔ n = s.rest.length ∧ s = last := by
  change EStateM.Result.ok s.rest.length s = .ok n last ↔ _
  simp [eq_comm (a := n)]

theorem bump_succeeds {s last : ParseState} :
    bump s = .ok () last ↔ (s.rest = [] ∧ last = s) ∨
      ∃ token rest, s.rest = .ok token :: rest ∧ last = ⟨token,rest,s.notes⟩ := by
  unfold bump
  cases hs : s.rest with
  | nil => simp [eq_comm]
  | cons reading rest =>
    cases reading with
    | error fault => simp
    | ok token =>
      constructor
      · intro moved; cases moved; exact .inr ⟨token,rest,rfl,rfl⟩
      · rintro (⟨none,_⟩ | ⟨_,_,same,rfl⟩)
        · cases none
        · cases same; rfl

theorem bind_binding_succeeds {α : Type} {binding : Binding α} {s last : ParseState} {a : α} :
    Parse.bind binding s = .ok a last ↔
      ∃ notes, binding s.notes = .ok a notes ∧ last = { s with notes := notes } := by
  unfold Parse.bind
  cases binding s.notes with
  | ok b notes =>
    constructor
    · intro bound; cases bound; exact ⟨notes,rfl,rfl⟩
    · rintro ⟨_,same,rfl⟩; cases same; rfl
  | error fault notes => simp

end Parse

namespace Parser

variable {σ : Type} {scope : Scope σ} {limits : Limits} {text : String}

theorem run_long (long : limits.maxLength < Text.byteLength text.toList) :
    run scope limits text = (.error ⟨.tooLong (Text.byteLength text.toList) limits.maxLength,
      ⟨limits.maxLength,Text.byteLength text.toList⟩⟩,[]) :=
  if_pos long

theorem run_short (short : Text.byteLength text.toList ≤ limits.maxLength) :
    run scope limits text = match formula scope limits text ⟨.initial,Lexer.readings text,[]⟩ with
      | .ok e s => (.ok e,s.notes.reverse)
      | .error fault s => (.error fault,s.notes.reverse) :=
  if_neg (Nat.not_lt.mpr short)

end Parser
end TypedFormula
