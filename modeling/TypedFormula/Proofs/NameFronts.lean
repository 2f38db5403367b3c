import TypedFormula.Proofs.CutTokens
import TypedFormula.Proofs.Rebinding

namespace TypedFormula

open Text

variable {σ : Type}

namespace DottedName

theorem others_of_splitLast {name path : DottedName} {method : Segment}
    (split : name.splitLast? = some (path,method)) :
    ∃ rest, name.others = path.others ++ rest ∧ name.first = path.first := by
  obtain ⟨first,others⟩ := name
  cases others with
  | nil => cases split
  | cons second rest =>
    cases split
    exact ⟨_,(List.dropLast_concat_getLast (List.cons_ne_nil second rest)).symm,rfl⟩

-- The cuts of a name that goes on: those that take in more of it come first.
theorem cuts_append (first : Segment) (front back : List Segment) :
    ∃ longer, cuts first (front ++ back) =
        longer ++ (cuts first front).map (fun cut => (cut.1,cut.2.1,cut.2.2 ++ back)) ∧
      ∀ cut ∈ longer, front.length ≤ cut.1.others.length := by
  induction front generalizing first with
  | nil => exact ⟨cuts first back,(List.append_nil _).symm,fun _ _ => Nat.zero_le _⟩
  | cons second front ih =>
    obtain ⟨longer,split,reach⟩ := ih second
    refine ⟨longer.map fun cut => (⟨first,cut.1.parts⟩,cut.2.1,cut.2.2),?_,?_⟩
    · rw [List.cons_append,cuts,split,cuts]
      simp
    · intro cut present
      obtain ⟨inner,inside,rfl⟩ := List.mem_map.mp present
      exact Nat.succ_le_succ (reach inner inside)

end DottedName

namespace Scope

variable {scope : Scope σ} {first : Segment} {front back : List Segment}

theorem longestType_eq (name : DottedName) : scope.longestType? name =
    (DottedName.cuts name.first name.others).findSome? fun cut =>
      (scope.registry.get? cut.1.text).map fun info => (info,cut) := rfl

theorem longestType_front {info : TypeInfo σ} {type : DottedName} {segment : Segment} {rest : List Segment}
    (found : scope.longestType? ⟨first,front ++ back⟩ = some (info,type,segment,rest ++ back)) :
    scope.longestType? ⟨first,front⟩ = some (info,type,segment,rest) := by
  have split := Expr.longestType_split found
  have inside : front = type.others ++ segment :: rest := by
    have same : front ++ back = (type.others ++ segment :: rest) ++ back := by
      rw [List.append_assoc]
      exact (List.cons.inj split).2
    exact List.append_cancel_right same
  obtain ⟨longer,cuts,reach⟩ := DottedName.cuts_append first front back
  rw [longestType_eq] at found ⊢
  rw [cuts,List.findSome?_append] at found
  cases hit : List.findSome? (fun cut => (scope.registry.get? cut.1.text).map fun info => (info,cut)) longer with
  | some other =>
    -- A longer type would have been found first.
    rw [hit] at found
    cases found
    obtain ⟨cut,present,here⟩ := List.exists_of_findSome?_eq_some hit
    obtain ⟨_,_,same⟩ := Option.map_eq_some_iff.mp here
    obtain ⟨_,same⟩ := Prod.mk.inj same
    obtain ⟨same,_⟩ := Prod.mk.inj same
    have long := reach cut present
    rw [same,inside,List.length_append,List.length_cons] at long
    omega
  | none =>
    rw [hit,Option.none_or,List.findSome?_map] at found
    have goesOn : ∀ cuts : List (DottedName × Segment × List Segment),
        cuts.findSome? ((fun cut => (scope.registry.get? cut.1.text).map fun info => (info,cut)) ∘
          fun cut => (cut.1,cut.2.1,cut.2.2 ++ back)) =
        (cuts.findSome? fun cut => (scope.registry.get? cut.1.text).map fun info => (info,cut)).map
          fun found => (found.1,found.2.1,found.2.2.1,found.2.2.2 ++ back) := by
      intro cuts
      rw [List.map_findSome?]
      refine congrArg (List.findSome? · cuts) (funext fun cut => ?_)
      simp only [Function.comp_def,Option.map_map]
    rw [goesOn] at found
    obtain ⟨shorter,here,same⟩ := Option.map_eq_some_iff.mp found
    rw [here]
    obtain ⟨_,_,_,_⟩ := shorter
    simp only [Prod.mk.injEq,List.append_cancel_right_eq] at same
    obtain ⟨rfl,rfl,rfl,rfl⟩ := same
    rfl

theorem root_front {e : Expr σ} {rest : List Segment}
    (found : scope.root? ⟨first,front ++ back⟩ = some (e,rest ++ back)) :
    scope.root? ⟨first,front⟩ = some (e,rest) := by
  unfold root? at found ⊢
  dsimp only at found ⊢
  split at found
  · simp only [Option.some.injEq,Prod.mk.injEq,List.append_cancel_right_eq] at found
    obtain ⟨rfl,rfl⟩ := found
    rfl
  · split at found
    · rename_i info type segment others longest
      obtain ⟨x,static,same⟩ := Option.map_eq_some_iff.mp found
      cases same
      rw [longestType_front longest]
      dsimp only
      rw [static]
      rfl
    · cases found

theorem root_split {name : DottedName} {e : Expr σ} {rest : List Segment}
    (found : scope.root? name = some (e,rest)) : (∃ used, name.others = used ++ rest) ∧ e.children = [] := by
  unfold root? at found
  split at found
  · cases found
    exact ⟨⟨[],rfl⟩,rfl⟩
  · split at found
    · rename_i info type segment others longest
      obtain ⟨x,static,same⟩ := Option.map_eq_some_iff.mp found
      cases same
      obtain ⟨m,_,rfl⟩ := Option.map_eq_some_iff.mp static
      refine ⟨⟨type.others ++ [segment],?_⟩,rfl⟩
      rw [List.append_assoc]
      exact (List.cons.inj (Expr.longestType_split longest)).2
    · cases found

theorem instanceMembers_nodes {x e node : Expr σ} {segments : List Segment}
    (found : scope.instanceMembers? x segments = some e) (present : node ∈ e.nodes) :
    node ∈ x.nodes ∨ ∃ segment front back, segments = segment :: front ++ back ∧
      scope.instanceMembers? x (segment :: front) = some node := by
  induction segments generalizing x with
  | nil =>
    cases found
    exact .inl present
  | cons segment rest ih =>
    obtain ⟨y,one,others⟩ := Option.bind_eq_some_iff.mp found
    rcases ih others with inside | ⟨second,front,back,rfl,shorter⟩
    · obtain ⟨m,_,same⟩ := Option.map_eq_some_iff.mp one
      rw [← same,Expr.nodes_eq] at inside
      rcases List.mem_cons.mp inside with rfl | below
      · refine .inr ⟨segment,[],rest,rfl,?_⟩
        rw [instanceMembers?,one]
        exact congrArg some same.symm
      · simp only [Expr.children,Receiver.target?,Option.toList_some,List.flatMap_cons,List.flatMap_nil,
          List.append_nil] at below
        exact .inl below
    · refine .inr ⟨segment,second :: front,back,rfl,?_⟩
      rw [instanceMembers?,one]
      exact shorter

theorem members_nodes {others : List Segment} {target : Option (Expr σ)} {e node : Expr σ}
    (found : scope.members? ⟨first,others⟩ target = some e) (present : node ∈ e.nodes) :
    (∃ x, target = some x ∧ node ∈ x.nodes) ∨
      ∃ front back, others = front ++ back ∧ scope.members? ⟨first,front⟩ target = some node := by
  cases target with
  | some x =>
    rcases instanceMembers_nodes found present with inside | ⟨segment,front,back,split,shorter⟩
    · exact .inl ⟨x,rfl,inside⟩
    · obtain ⟨rfl,behind⟩ := List.cons.inj split
      exact .inr ⟨front,back,behind,shorter⟩
  | none =>
    obtain ⟨⟨root,rest⟩,start,more⟩ := Option.bind_eq_some_iff.mp found
    obtain ⟨⟨used,split⟩,leaf⟩ := root_split start
    dsimp only at split more
    subst split
    have shorter : ∀ {front back : List Segment}, rest = front ++ back →
        scope.instanceMembers? root front = some node → scope.members? ⟨first,used ++ front⟩ none = some node := by
      rintro front back rfl walked
      rw [← List.append_assoc] at start
      rw [members?,root_front start]
      exact walked
    rcases instanceMembers_nodes more present with inside | ⟨segment,front,back,split,walked⟩
    · rw [Expr.nodes_eq,leaf] at inside
      cases List.mem_singleton.mp inside
      exact .inr ⟨used ++ [],rest,by rw [List.append_nil],shorter (List.nil_append rest).symm rfl⟩
    · exact .inr ⟨used ++ segment :: front,back,by rw [split,List.append_assoc],shorter split walked⟩

end Scope

def plainPart (piece : String) : Prop := piece ≠ "" ∧ piece ≠ "true" ∧ piece ≠ "false"

theorem DottedName.ofText_join (front back : String) (start : Nat) :
    ∃ behind, (ofText (front ++ "." ++ back) start).first = (ofText front start).first ∧
      (ofText (front ++ "." ++ back) start).others = (ofText front start).others ++ behind := by
  have after : ∀ (stop : Nat) (one two : List (List Char)), ∃ behind,
      Segment.placeAfter stop (one ++ two) = Segment.placeAfter stop one ++ behind := by
    intro stop one two
    induction one generalizing stop with
    | nil => exact ⟨_,rfl⟩
    | cons piece one ih =>
      obtain ⟨behind,split⟩ := ih (Segment.place (stop + 1) piece).span.stop
      exact ⟨behind,congrArg _ split⟩
  have joined : splitDots (front ++ "." ++ back).toList = ((splitDots front.toList).1,
      (splitDots front.toList).2 ++ (splitDots back.toList).1 :: (splitDots back.toList).2) := by
    rw [String.toList_append,String.toList_append,List.append_assoc]
    exact splitDots_append _ _
  unfold ofText
  rw [joined]
  obtain ⟨behind,split⟩ := after _ (splitDots front.toList).2 ((splitDots back.toList).1 :: (splitDots back.toList).2)
  exact ⟨behind,rfl,split⟩

theorem IsName.front {spelling : String} {front back : List String} (isName : IsName spelling)
    (plain : ∀ piece ∈ pieces spelling, plainPart piece) (split : pieces spelling = front ++ back)
    (filled : front ≠ []) (behind : back ≠ []) :
    spelling = dotted front ++ "." ++ dotted back ∧ IsName (dotted front) ∧ pieces (dotted front) = front := by
  have whole : spelling = dotted front ++ "." ++ dotted back := by
    rw [← dotted_append filled behind,← split,dotted_pieces]
  have clear : ∀ piece ∈ front, '.' ∉ piece.toList := fun piece present =>
    pieces_clear (by rw [split]; exact List.mem_append_left _ present)
  have parts := pieces_dotted_plain filled clear
  have inFront : ∀ piece ∈ front, plainPart piece := fun piece present =>
    plain piece (by rw [split]; exact List.mem_append_left _ present)
  -- A front without dots is one of the parts, and no part is a reserved word.
  have word : ∀ piece : String, '.' ∉ piece.toList → ¬plainPart piece → dotted front ≠ piece := by
    rintro piece clear reserved rfl
    rw [pieces_plain clear] at parts
    exact reserved (inFront _ (by rw [← parts]; exact List.mem_cons_self))
  refine ⟨whole,⟨?_,?_,?_,?_,?_⟩,parts⟩
  · obtain ⟨c,cs,first,starts⟩ := isName.starts
    rw [whole,String.toList_append,String.toList_append,List.append_assoc] at first
    cases same : (dotted front).toList with
    | nil =>
      rw [same] at first
      cases first
      exact absurd starts (by decide)
    | cons d ds =>
      rw [same] at first
      cases first
      exact ⟨c,ds,rfl,starts⟩
  · intro c present
    refine isName.continues c ?_
    rw [whole,String.toList_append,String.toList_append,List.append_assoc]
    exact List.mem_append_left _ present
  · -- The last part is not empty and holds no dot.
    obtain none | ⟨init,last,same⟩ := List.eq_nil_or_concat front
    · exact absurd none filled
    rw [List.concat_eq_append] at same
    subst same
    have inside : last ∈ init ++ [last] := List.mem_append_right _ List.mem_cons_self
    have some : last.toList ≠ [] := fun none => (inFront last inside).1 (String.toList_eq_nil_iff.mp none)
    obtain ⟨before,ends⟩ : ∃ before, (dotted (init ++ [last])).toList = before ++ last.toList := by
      by_cases alone : init = []
      · exact ⟨[],by rw [alone,List.nil_append,dotted_singleton]; rfl⟩
      · exact ⟨_,by rw [dotted_append alone (List.cons_ne_nil _ _),dotted_singleton,String.toList_append]⟩
    rw [ends,getLast?_behind some]
    exact fun dot => clear last inside (List.mem_of_getLast? dot)
  · exact word "true" (by decide) fun plain => plain.2.1 rfl
  · exact word "false" (by decide) fun plain => plain.2.2 rfl

theorem Token.cutsTo_front {token : Token} {spelling : String} {front back : List Segment}
    (is : token.kind = .name spelling) (isName : IsName spelling) (plain : ∀ piece ∈ pieces spelling, plainPart piece)
    (split : (DottedName.ofText spelling token.span.start).others = front ++ back) :
    ∃ other shorter, token.CutsTo other ∧ other.kind = .name shorter ∧
      DottedName.ofText shorter other.span.start = ⟨(DottedName.ofText spelling token.span.start).first,front⟩ := by
  by_cases whole : back = []
  · subst whole
    rw [List.append_nil] at split
    exact ⟨token,spelling,.whole,is,by rw [← split]⟩
  have texts := DottedName.texts_ofText spelling token.span.start
  have parts : pieces spelling =
      ((DottedName.ofText spelling token.span.start).first :: front).map (·.text) ++ back.map (·.text) := by
    rw [← texts,DottedName.texts,DottedName.parts,split,← List.map_append]
    rfl
  obtain ⟨joined,shorter,same⟩ := isName.front plain parts (List.cons_ne_nil _ _) (by simpa using whole)
  obtain ⟨behind,first,others⟩ := DottedName.ofText_join
    (dotted (((DottedName.ofText spelling token.span.start).first :: front).map (·.text)))
    (dotted (back.map (·.text))) token.span.start
  rw [← joined] at first others
  rw [joined] at is
  refine ⟨_,_,.shorter is shorter,rfl,?_⟩
  have length := congrArg List.length ((DottedName.texts_ofText _ token.span.start).trans same)
  simp only [DottedName.texts,DottedName.parts,List.map_cons,List.length_cons,List.length_map,
    Nat.add_right_cancel_iff] at length
  obtain ⟨rest,_⟩ := List.append_inj (split.symm.trans others) length.symm
  exact (congrArg₂ DottedName.mk first rest).symm

end TypedFormula
