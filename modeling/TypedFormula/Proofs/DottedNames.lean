import TypedFormula.DottedName

namespace TypedFormula

namespace Text

theorem splitDots_append (a b : List Char) : splitDots (a ++ '.' :: b) =
    ((splitDots a).1,(splitDots a).2 ++ (splitDots b).1 :: (splitDots b).2) := by
  induction a with
  | nil => rfl
  | cons c cs ih =>
    rw [List.cons_append,splitDots,splitDots,ih]
    dsimp only
    split <;> rfl

theorem splitDots_plain {cs : List Char} (plain : '.' ∉ cs) : splitDots cs = (cs,[]) := by
  induction cs with
  | nil => rfl
  | cons c cs ih =>
    have other : c ≠ '.' := fun same => plain (by rw [same]; exact List.mem_cons_self)
    rw [splitDots,ih fun present => plain (List.mem_cons_of_mem _ present)]
    dsimp only
    rw [if_neg other]

theorem splitDots_clear (cs : List Char) :
    ∀ piece ∈ (splitDots cs).1 :: (splitDots cs).2, '.' ∉ piece := by
  induction cs with
  | nil => simp [splitDots]
  | cons c cs ih =>
    rw [splitDots]
    dsimp only
    split
    · intro piece present
      rcases List.mem_cons.mp present with rfl | later
      · simp
      · exact ih piece later
    · rename_i other
      intro piece present
      rcases List.mem_cons.mp present with rfl | later
      · intro dot
        rcases List.mem_cons.mp dot with same | inside
        · exact other same.symm
        · exact ih _ List.mem_cons_self inside
      · exact ih piece (List.mem_cons_of_mem _ later)

end Text

def dotted (names : List String) : String := ".".intercalate names

def pieces (name : String) : List String :=
  ((Text.splitDots name.toList).1 :: (Text.splitDots name.toList).2).map String.ofList

theorem pieces_ne_nil (name : String) : pieces name ≠ [] := List.cons_ne_nil _ _

theorem dotted_singleton (name : String) : dotted [name] = name := String.intercalate_singleton

theorem dotted_cons (name : String) {names : List String} (filled : names ≠ []) :
    dotted (name :: names) = name ++ "." ++ dotted names :=
  String.intercalate_cons_of_ne_nil filled

theorem dotted_append {names others : List String} (one : names ≠ []) (two : others ≠ []) :
    dotted (names ++ others) = dotted names ++ "." ++ dotted others :=
  String.intercalate_append_of_ne_nil one two

theorem pieces_append (a b : String) : pieces (a ++ "." ++ b) = pieces a ++ pieces b := by
  unfold pieces
  rw [String.toList_append,String.toList_append,List.append_assoc,
    show ".".toList ++ b.toList = '.' :: b.toList from rfl,Text.splitDots_append]
  simp

theorem pieces_plain {name : String} (plain : '.' ∉ name.toList) : pieces name = [name] := by
  unfold pieces
  rw [Text.splitDots_plain plain,List.map_cons,List.map_nil,String.ofList_toList]

theorem pieces_clear {name piece : String} (present : piece ∈ pieces name) : '.' ∉ piece.toList := by
  obtain ⟨chars,inside,rfl⟩ := List.mem_map.mp present
  rw [String.toList_ofList]
  exact Text.splitDots_clear _ chars inside

theorem pieces_dotted {names : List String} (filled : names ≠ []) :
    pieces (dotted names) = names.flatMap pieces := by
  induction names with
  | nil => exact absurd rfl filled
  | cons name names ih =>
    by_cases alone : names = []
    · rw [alone,dotted_singleton,List.flatMap_cons,List.flatMap_nil,List.append_nil]
    · rw [dotted_cons name alone,pieces_append,ih alone,List.flatMap_cons]

theorem dotted_pieces (name : String) : dotted (pieces name) = name := by
  have joined : ∀ cs : List Char,
      dotted (((Text.splitDots cs).1 :: (Text.splitDots cs).2).map String.ofList) = String.ofList cs := by
    intro cs
    induction cs with
    | nil => rfl
    | cons c cs ih =>
      rw [Text.splitDots]
      dsimp only
      split
      · rename_i dot
        rw [List.map_cons,dotted_cons _ (by simp),ih,dot]
        apply String.toList_injective
        simp
      · rw [List.map_cons] at ih ⊢
        by_cases alone : (Text.splitDots cs).2.map String.ofList = []
        · rw [alone,dotted_singleton] at ih ⊢
          apply String.toList_injective
          rw [String.toList_ofList,String.toList_ofList,String.ofList_injective ih]
        · rw [dotted_cons _ alone] at ih ⊢
          apply String.toList_injective
          have same := congrArg String.toList ih
          simp only [String.toList_append,String.toList_ofList] at same ⊢
          exact congrArg (c :: ·) same
  have same := joined name.toList
  rw [String.ofList_toList] at same
  exact same

theorem dotted_flatMap_pieces {names : List String} (filled : names ≠ []) :
    dotted (names.flatMap pieces) = dotted names := by
  rw [← pieces_dotted filled,dotted_pieces]

theorem flatMap_pieces_plain {names : List String} (plain : ∀ name ∈ names, '.' ∉ name.toList) :
    names.flatMap pieces = names := by
  induction names with
  | nil => rfl
  | cons name names ih =>
    rw [List.flatMap_cons,pieces_plain (plain name List.mem_cons_self),
      ih fun other present => plain other (List.mem_cons_of_mem _ present)]
    rfl

theorem pieces_dotted_plain {names : List String} (filled : names ≠ []) (plain : ∀ name ∈ names, '.' ∉ name.toList) :
    pieces (dotted names) = names := (pieces_dotted filled).trans (flatMap_pieces_plain plain)

namespace DottedName

def texts (name : DottedName) : List String := name.parts.map (·.text)

theorem text_eq (name : DottedName) : name.text = dotted name.texts := rfl

theorem texts_ofText (text : String) (start : Nat) : (ofText text start).texts = pieces text := by
  have placed : ∀ stop others,
      (Segment.placeAfter stop others).map (·.text) = others.map String.ofList := by
    intro stop others
    induction others generalizing stop with
    | nil => rfl
    | cons piece others ih =>
      rw [Segment.placeAfter,List.map_cons,ih]
      rfl
  unfold texts ofText pieces parts
  dsimp only
  rw [List.map_cons,placed]
  rfl

theorem texts_ne_nil (name : DottedName) : name.texts ≠ [] := List.cons_ne_nil _ _

theorem pieces_text {name : DottedName} (plain : ∀ piece ∈ name.texts, '.' ∉ piece.toList) :
    pieces name.text = name.texts := by
  rw [text_eq,pieces_dotted_plain name.texts_ne_nil plain]

theorem parts_of_splitLast {name path : DottedName} {method : Segment}
    (split : name.splitLast? = some (path,method)) : name.parts = path.parts ++ [method] := by
  obtain ⟨first,others⟩ := name
  cases others with
  | nil => cases split
  | cons second rest =>
    cases split
    exact congrArg (first :: ·) (List.dropLast_concat_getLast (List.cons_ne_nil second rest)).symm

theorem texts_of_splitLast {name path : DottedName} {method : Segment}
    (split : name.splitLast? = some (path,method)) : name.texts = path.texts ++ [method.text] := by
  rw [texts,parts_of_splitLast split,List.map_append]
  rfl

theorem texts_of_noSplit {name : DottedName} (none : name.splitLast? = none) :
    name.texts = [name.first.text] := by
  obtain ⟨first,others⟩ := name
  cases others with
  | nil => rfl
  | cons => cases none

theorem splitLast_none {name : DottedName} {only : String} (texts : name.texts = [only]) :
    name.splitLast? = none ∧ name.others = [] ∧ name.first.text = only := by
  obtain ⟨first,others⟩ := name
  obtain ⟨one,none⟩ := List.cons.inj texts
  cases List.map_eq_nil_iff.mp none
  exact ⟨rfl,rfl,one⟩

theorem splitLast_some {name : DottedName} {front : List String} {last : String}
    (texts : name.texts = front ++ [last]) (filled : front ≠ []) :
    ∃ path method, name.splitLast? = some (path,method) ∧ path.texts = front ∧ method.text = last := by
  obtain ⟨first,others⟩ := name
  cases others with
  | nil =>
    have length := congrArg List.length texts
    have some := List.length_pos_iff.mpr filled
    rw [List.length_append,List.length_singleton] at length
    change 1 = _ at length
    omega
  | cons second rest =>
    refine ⟨_,_,rfl,?_,?_⟩
    · have init := congrArg List.dropLast texts
      rw [List.dropLast_concat] at init
      rw [← init]
      simp [DottedName.texts,parts,List.map_dropLast]
    · have final := congrArg List.getLast? texts
      rw [List.getLast?_concat] at final
      simp only [DottedName.texts,parts,List.map_cons,List.getLast?_cons_cons] at final
      rw [← List.map_cons,List.getLast?_map,List.getLast?_eq_some_getLast (List.cons_ne_nil second rest),
        Option.map_some] at final
      exact Option.some.inj final

-- The longer names in a list of cuts come before the name that is cut in front of a given part; they go
-- on through that part.
theorem mem_cuts {first : Segment} {others : List Segment} {name : DottedName} {member : Segment}
    {tail : List Segment} (present : (name,member,tail) ∈ cuts first others) :
    first :: others = name.parts ++ member :: tail := by
  induction others generalizing first name with
  | nil => cases present
  | cons second rest ih =>
    rw [cuts] at present
    rcases List.mem_append.mp present with longer | last
    · obtain ⟨⟨inner,other,left⟩,inside,same⟩ := List.mem_map.mp longer
      cases same
      rw [ih inside]
      rfl
    · cases List.mem_singleton.mp last
      rfl

theorem cuts_at (first : Segment) (others : List Segment) (segment : Segment) (tail : List Segment) :
    ∃ longer shorter, cuts first (others ++ segment :: tail) =
        longer ++ (⟨first,others⟩,segment,tail) :: shorter ∧
      ∀ cut ∈ longer, ∃ mid member rest, tail = mid ++ member :: rest ∧
        cut.1.parts = first :: others ++ segment :: mid := by
  induction others generalizing first with
  | nil =>
    refine ⟨_,[],rfl,?_⟩
    intro cut present
    obtain ⟨⟨inner,member,rest⟩,inside,rfl⟩ := List.mem_map.mp present
    have split := mem_cuts inside
    obtain ⟨head,body⟩ := inner
    obtain ⟨rfl,tailSplit⟩ := List.cons.inj split
    exact ⟨body,member,rest,tailSplit,rfl⟩
  | cons second others ih =>
    obtain ⟨longer,shorter,split,reach⟩ := ih second
    refine ⟨longer.map fun cut => (⟨first,cut.1.parts⟩,cut.2.1,cut.2.2),
      (shorter.map fun cut => (⟨first,cut.1.parts⟩,cut.2.1,cut.2.2)) ++
        [(⟨first,[]⟩,second,others ++ segment :: tail)],?_,?_⟩
    · rw [List.cons_append,cuts,split]
      simp [parts]
    · intro cut present
      obtain ⟨inner,inside,rfl⟩ := List.mem_map.mp present
      obtain ⟨mid,member,rest,tailSplit,same⟩ := reach inner inside
      refine ⟨mid,member,rest,tailSplit,?_⟩
      change first :: inner.1.parts = _
      rw [same]
      rfl

end DottedName
end TypedFormula
