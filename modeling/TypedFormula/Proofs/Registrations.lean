import TypedFormula.Registry
import TypedFormula.Proofs.Declarations

namespace TypedFormula.Registry

variable {σ : Type}

inductive Call (σ : Type) where
  | register (info : TypeInfo σ)
  | insert (info : TypeInfo σ)

def Call.info : Call σ → TypeInfo σ
  | .register info => info
  | .insert info => info

def perform (r : Registry σ) : Call σ → Except DuplicateType (Registry σ)
  | .register info => r.register info
  | .insert info => .ok (r.insert info)

def after (r : Registry σ) (call : Call σ) : Registry σ :=
  match r.perform call with
  | .ok next => next
  | .error _ => r

def ofCalls (calls : List (Call σ)) : Registry σ := calls.foldl after empty

-- The descriptions from the calls of a run that were not refused.
def accepted (r : Registry σ) : List (Call σ) → List (TypeInfo σ)
  | [] => []
  | call :: calls =>
    match r.perform call with
    | .ok next => call.info :: accepted next calls
    | .error _ => accepted r calls

structure Reflects (r : Registry σ) (history : List (Call σ)) : Prop where
  types : ∀ name, r.get? name = Entries.latest TypeInfo.name name (accepted empty history)
  size : r.size = (history.map fun call => call.info.name).toFinset.card
  taken : ∀ info, info.name ∈ history.map (fun call => call.info.name) →
    r.register info = .error ⟨info.name⟩ ∧ r.after (.register info) = r
  free : ∀ info, info.name ∉ history.map (fun call => call.info.name) → r.register info = .ok (r.insert info)
  others : ∀ (call : Call σ) name, call.info.name ≠ name → (r.after call).get? name = r.get? name

theorem contains_iff (r : Registry σ) (name : String) :
    r.contains name = true ↔ name ∈ r.types.map TypeInfo.name := by
  simp [contains]

theorem perform_cases (r : Registry σ) (call : Call σ) :
    r.perform call = .ok (r.insert call.info) ∨
      r.perform call = .error ⟨call.info.name⟩ ∧ call.info.name ∈ r.types.map TypeInfo.name := by
  cases call with
  | insert info => exact .inl rfl
  | register info =>
    simp only [perform,register,Call.info,← contains_iff]
    split
    next taken => exact .inr ⟨rfl,taken⟩
    next => exact .inl rfl

theorem types_run (r : Registry σ) (calls : List (Call σ)) :
    (calls.foldl after r).types = Entries.replaceAll TypeInfo.name r.types (accepted r calls) := by
  induction calls generalizing r with
  | nil => rfl
  | cons call calls ih =>
    rcases perform_cases r call with done | ⟨refused,_⟩
    · simp only [List.foldl_cons,after,accepted,done]
      exact ih (r.insert call.info)
    · simp only [List.foldl_cons,after,accepted,refused]
      exact ih r

theorem mem_names_after {r : Registry σ} {call : Call σ} {name : String} :
    name ∈ (r.after call).types.map TypeInfo.name ↔
      name ∈ r.types.map TypeInfo.name ∨ name = call.info.name := by
  unfold after
  rcases perform_cases r call with done | ⟨refused,taken⟩
  · rw [done]
    exact Entries.mem_keys_replace TypeInfo.name
  · rw [refused]
    exact ⟨.inl,fun either => either.elim id (· ▸ taken)⟩

theorem mem_names_run {r : Registry σ} {calls : List (Call σ)} {name : String} :
    name ∈ (calls.foldl after r).types.map TypeInfo.name ↔
      name ∈ r.types.map TypeInfo.name ∨ name ∈ calls.map fun call => call.info.name := by
  induction calls generalizing r with
  | nil => simp
  | cons call calls ih => simp only [List.foldl_cons,ih,mem_names_after,List.map_cons,List.mem_cons,or_assoc]

theorem mem_names_ofCalls {calls : List (Call σ)} {name : String} :
    name ∈ (ofCalls calls).types.map TypeInfo.name ↔ name ∈ calls.map fun call => call.info.name := by
  unfold ofCalls
  simp only [mem_names_run,empty,List.map_nil,List.not_mem_nil,false_or]

theorem types_ofCalls (calls : List (Call σ)) :
    (ofCalls calls).types = Entries.replaceAll TypeInfo.name [] (accepted empty calls) :=
  types_run empty calls

theorem size_ofCalls (calls : List (Call σ)) :
    (ofCalls calls).size = (calls.map fun call => call.info.name).toFinset.card := by
  have apart : ((ofCalls calls).types.map TypeInfo.name).Nodup := by
    rw [types_ofCalls]
    exact Entries.nodup_replaceAll TypeInfo.name _
  have names : ((ofCalls calls).types.map TypeInfo.name).toFinset =
      (calls.map fun call => call.info.name).toFinset := by
    ext name
    simp only [List.mem_toFinset,mem_names_ofCalls]
  rw [← names,List.toFinset_card_of_nodup apart,List.length_map,size]

theorem get?_after_other {r : Registry σ} {call : Call σ} {name : String} (other : call.info.name ≠ name) :
    (r.after call).get? name = r.get? name := by
  unfold after
  rcases perform_cases r call with done | ⟨refused,_⟩
  · rw [done]
    exact Entries.find?_replace_other TypeInfo.name r.types fun old same =>
      beq_false_of_ne fun named => other (same.symm.trans named)
  · rw [refused]

theorem ofCalls_reflects (calls : List (Call σ)) : (ofCalls calls).Reflects calls where
  types name := by
    rw [get?,types_ofCalls,← Entries.find?_replaceAll]
  size := size_ofCalls calls
  taken info present := by
    have taken : (ofCalls calls).contains info.name = true := by
      simpa only [contains_iff,mem_names_ofCalls] using present
    simp [after,perform,register,taken]
  free info absent := by
    have free : ¬(ofCalls calls).contains info.name = true := by
      simpa only [contains_iff,mem_names_ofCalls] using absent
    simp [register,free]
  others _ _ other := get?_after_other other

end Registry

theorem last_entry_answers {σ : Type} (typeName : String) (declarations : List (Declaration σ))
    (calls : List (Registry.Call σ)) :
    (TypeInfo.ofDeclarations typeName declarations).Reflects declarations ∧
      (∀ (d : Declaration σ) (query : TypeInfo.Query), ¬query.Concerns d →
        (TypeInfo.ofDeclarations typeName (declarations ++ [d])).answer query =
          (TypeInfo.ofDeclarations typeName declarations).answer query) ∧
      (Registry.ofCalls calls).Reflects calls := by
  refine ⟨TypeInfo.ofDeclarations_reflects typeName declarations,fun d query other => ?_,
    Registry.ofCalls_reflects calls⟩
  simpa [TypeInfo.ofDeclarations] using TypeInfo.declare_answer other

end TypedFormula
