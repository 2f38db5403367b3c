import Mathlib.Data.Finset.Card
import Mathlib.Data.List.Nodup

namespace TypedFormula.Entries

variable {α κ : Type} [BEq κ] (key : α → κ)

-- The last entry of a history under one key.
def latest (k : κ) (history : List α) : Option α := (history.filter (key · == k)).getLast?

def replace (entries : List α) (x : α) : List α := entries.filter (key · != key x) ++ [x]

def replaceAll (entries history : List α) : List α := history.foldl (replace key) entries

@[simp] theorem latest_append (k : κ) (history : List α) (x : α) :
    latest key k (history ++ [x]) = if key x == k then some x else latest key k history := by
  unfold latest
  by_cases same : key x == k <;> simp [List.filter_append,same]

@[simp] theorem replaceAll_append (entries history : List α) (x : α) :
    replaceAll key entries (history ++ [x]) = replace key (replaceAll key entries history) x := by
  simp [replaceAll]

-- A part of a state that each step leaves or puts one entry into holds the entries of the whole run.
theorem part_foldl {S δ : Type} (part : S → List α) (entry : δ → Option α) {step : S → δ → S}
    (steps : ∀ s d, part (step s d) = (entry d).elim (part s) (replace key (part s))) (ds : List δ) (s : S) :
    part (ds.foldl step s) = replaceAll key (part s) (ds.filterMap entry) := by
  induction ds generalizing s with
  | nil => rfl
  | cons d ds ih =>
    rw [List.foldl_cons,ih,steps]
    cases found : entry d <;> simp [found,replaceAll]

variable [LawfulBEq κ]

theorem find?_replace_self (entries : List α) (x : α) :
    (replace key entries x).find? (key · == key x) = some x := by
  have gone : (entries.filter (key · != key x)).find? (key · == key x) = none := by
    simp [List.find?_eq_none]
  simp [replace,List.find?_append,gone]

theorem find?_replace_other {p : α → Bool} (entries : List α) {x : α} (differs : ∀ y, key y = key x → p y = false) :
    (replace key entries x).find? p = entries.find? p := by
  have kept : (entries.filter (key · != key x)).find? p = entries.find? p := by
    simp only [List.find?_filter]
    congr 1
    funext y
    by_cases same : key y = key x
    · simp [same,differs y same]
    · simp [same]
  simp [replace,List.find?_append,kept,differs x rfl]

theorem find?_other {p : α → Bool} (entries : List α) (entry : Option α)
    (differs : ∀ x, entry = some x → ∀ y, key y = key x → p y = false) :
    (entry.elim entries (replace key entries)).find? p = entries.find? p := by
  cases entry with
  | none => rfl
  | some x => exact find?_replace_other key entries (differs x rfl)

theorem find?_replaceAll (k : κ) (history : List α) :
    (replaceAll key [] history).find? (key · == k) = latest key k history := by
  induction history using List.reverseRecOn with
  | nil => rfl
  | append_singleton history x ih =>
    simp only [replaceAll_append,latest_append]
    by_cases same : key x = k
    · subst same
      simpa using find?_replace_self key _ x
    · have kept := find?_replace_other key (replaceAll key [] history) (p := (key · == k)) (x := x)
        fun y equal => beq_false_of_ne fun found => same (equal.symm.trans found)
      simpa [same,ih] using kept

theorem mem_keys_replace {entries : List α} {x : α} {k : κ} :
    k ∈ (replace key entries x).map key ↔ k ∈ entries.map key ∨ k = key x := by
  by_cases same : k = key x
  · simp [replace,same]
  · simp only [replace,List.map_append,List.mem_append,List.mem_map,List.mem_filter,List.map_cons,
      List.map_nil,List.mem_singleton,same,or_false]
    constructor
    · rintro ⟨y,⟨present,_⟩,rfl⟩
      exact ⟨y,present,rfl⟩
    · rintro ⟨y,present,rfl⟩
      exact ⟨y,⟨present,by simpa using same⟩,rfl⟩

theorem mem_keys_replaceAll {entries history : List α} {k : κ} :
    k ∈ (replaceAll key entries history).map key ↔ k ∈ entries.map key ∨ k ∈ history.map key := by
  induction history using List.reverseRecOn with
  | nil => simp [replaceAll]
  | append_singleton history x ih => simp only [replaceAll_append,mem_keys_replace,ih,List.map_append,
      List.mem_append,List.map_cons,List.map_nil,List.mem_singleton,or_assoc]

theorem nodup_replace {entries : List α} (apart : (entries.map key).Nodup) (x : α) :
    ((replace key entries x).map key).Nodup := by
  have below : ((entries.filter (key · != key x)).map key).Nodup :=
    apart.sublist (List.filter_sublist.map key)
  simp only [replace,List.map_append,List.map_cons,List.map_nil,List.nodup_append]
  refine ⟨below,List.nodup_singleton _,fun a present b new => ?_⟩
  obtain ⟨y,kept,rfl⟩ := List.mem_map.mp present
  rw [List.mem_singleton.mp new]
  simpa using (List.mem_filter.mp kept).2

theorem nodup_replaceAll (history : List α) : ((replaceAll key [] history).map key).Nodup := by
  induction history using List.reverseRecOn with
  | nil => exact List.nodup_nil
  | append_singleton history x ih =>
    simpa [replaceAll_append] using nodup_replace key ih x

end TypedFormula.Entries
