import TypedFormula.Proofs.Snippets

namespace TypedFormula
namespace Text

variable {cs rest : List Char} {n k : Nat}

theorem byteLength_take_mono {i j : Nat} (le : i ≤ j) : byteLength (cs.take i) ≤ byteLength (cs.take j) := by
  obtain ⟨more,rfl⟩ := Nat.exists_eq_add_of_le le
  rw [List.take_add,byteLength_append]
  exact Nat.le_add_right _ _

theorem lt_length_coverBytes : k < (coverBytes n cs).length ↔ k < cs.length ∧ byteLength (cs.take k) < n := by
  fun_induction coverBytes n cs generalizing k with
  | case1 cs => simp
  | case2 => simp
  | case3 n c cs ih =>
    cases k with
    | zero => simp [byteLength]
    | succ k =>
      simp only [List.length_cons,List.take_succ_cons,byteLength,Nat.add_lt_add_iff_right,ih]
      omega

theorem exists_character (inside : n < byteLength cs) :
    ∃ k < cs.length, byteLength (cs.take k) ≤ n ∧ n < byteLength (cs.take (k + 1)) := by
  induction cs generalizing n with
  | nil => cases inside
  | cons c cs ih =>
    by_cases first : n < c.utf8Size
    · exact ⟨0,by simp,by simp [byteLength],by simpa [byteLength] using first⟩
    · simp only [byteLength] at inside
      obtain ⟨k,present,before,behind⟩ := ih (n := n - c.utf8Size) (by omega)
      exact ⟨k + 1,by simpa using present,by simp only [List.take_succ_cons,byteLength]; omega,
        by simp only [List.take_succ_cons,byteLength] at behind ⊢; omega⟩

-- The column behind a character, on a display that starts each line at column 0, leads a tab to the next
-- multiple of its width and gives one column to every other character: to a carriage return, a wide character
-- and one without width as well.
def advance (tab column : Nat) (c : Char) : Nat :=
  if c = '\n' then 0 else if c = '\t' then (column / tab + 1) * tab else column + 1

def columnOf (tab : Nat) (cs : List Char) (k : Nat) : Nat := (cs.take k).foldl (advance tab) 0

theorem lt_advance {tab : Nat} (positive : 0 < tab) (column : Nat) {c : Char} (goesOn : c ≠ '\n') :
    column < advance tab column c := by
  rw [advance,if_neg goesOn]
  split
  · rw [Nat.add_mul,Nat.one_mul]
    exact Nat.lt_div_mul_add positive
  · exact Nat.lt_succ_self column

theorem columnOf_succ {tab : Nat} {c : Char} (is : cs[k]? = some c) :
    columnOf tab cs (k + 1) = advance tab (columnOf tab cs k) c := by
  rw [columnOf,List.take_add_one,is,List.foldl_append]
  rfl

theorem columnOf_plain {tab : Nat} (inside : k ≤ cs.length) (plain : ∀ c ∈ cs.take k, c ≠ '\n' ∧ c ≠ '\t') :
    columnOf tab cs k = k := by
  induction k with
  | zero => rfl
  | succ k ih =>
    have is : cs[k]? = some cs[k] := List.getElem?_eq_getElem inside
    have taken : cs.take (k + 1) = cs.take k ++ [cs[k]] := by
      rw [List.take_add_one,is]
      rfl
    rw [taken] at plain
    obtain ⟨noBreak,noTab⟩ := plain cs[k] (List.mem_append_right _ (List.mem_singleton.mpr rfl))
    rw [columnOf_succ is,ih (by omega) fun c present => plain c (List.mem_append_left _ present),advance,
      if_neg noBreak,if_neg noTab]

end Text

open Text

namespace Diagnostic

-- The span and a character of a text share a byte. An empty span counts as one byte.
def Touches (d : Diagnostic) (cs : List Char) (k : Nat) : Prop :=
  k < cs.length ∧ byteLength (cs.take k) < d.span.start + d.length ∧ d.span.start < byteLength (cs.take (k + 1))

-- What is to be marked: the characters that the span touches, or the place behind the last one.
def Marks (d : Diagnostic) (cs : List Char) (k : Nat) : Prop :=
  d.Touches cs k ∨ (k = cs.length ∧ byteLength cs ≤ d.span.start)

instance (d : Diagnostic) (cs : List Char) (k : Nat) : Decidable (d.Touches cs k) :=
  inferInstanceAs (Decidable (_ ∧ _ ∧ _))

instance (d : Diagnostic) (cs : List Char) (k : Nat) : Decidable (d.Marks cs k) :=
  inferInstanceAs (Decidable (_ ∨ _ ∧ _))

-- The column of a character of a formula, which is shown with two blanks in front.
def shownColumn (tab : Nat) (formula : List Char) (k : Nat) : Nat := columnOf tab (' ' :: ' ' :: formula) (k + 2)

-- No line ends at this place of a formula or behind it.
def OnLastLine (formula : List Char) (k : Nat) : Prop := '\n' ∉ formula.drop k

-- A line has carets in the columns of what is to be marked, and nowhere else.
def SameColumns (tab : Nat) (d : Diagnostic) (formula drawn : List Char) : Prop :=
  ∀ column, drawn[column]? = some '^' ↔ ∃ k, d.Marks formula k ∧ shownColumn tab formula k = column

-- A line drawn below a formula has a caret directly below each of what is to be marked, and nowhere else. What
-- stands on an earlier line of the formula has another line of it directly below.
def Underlines (tab : Nat) (d : Diagnostic) (formula drawn : List Char) : Prop :=
  (∀ k, d.Marks formula k → OnLastLine formula k) ∧ d.SameColumns tab formula drawn

def caretLine (first many : Nat) : List Char := List.replicate (first + 2) ' ' ++ List.replicate many '^'

theorem caretLine_eq_caret {first many column : Nat} :
    (caretLine first many)[column]? = some '^' ↔ first + 2 ≤ column ∧ column < first + 2 + many := by
  rw [caretLine,List.getElem?_append,List.length_replicate,List.getElem?_replicate,List.getElem?_replicate]
  split
  · simp
    omega
  · simp
    omega

theorem mem_caretLine {first many : Nat} : ∀ c ∈ caretLine first many, c = ' ' ∨ c = '^' := by
  intro c present
  rcases List.mem_append.mp present with blank | caret
  · exact .inl (List.eq_of_mem_replicate blank)
  · exact .inr (List.eq_of_mem_replicate caret)

theorem ofList_caretLine (first many : Nat) : String.ofList (caretLine first many) =
    "  " ++ String.ofList (List.replicate first ' ' ++ List.replicate many '^') := by
  rw [← String.toList_inj]
  simp only [String.toList_append,String.toList_ofList]
  rfl

def caretsFrom (d : Diagnostic) (formula : List Char) : Nat :=
  ((beforeByte (min d.span.start (byteLength formula)) formula).map List.length).getD 0

def caretCount (d : Diagnostic) (formula : List Char) : Nat := max (d.snippetChars formula).length 1

theorem rendered_lines (d : Diagnostic) (formula : String) : d.rendered formula =
    "error: " ++ d.message ++ "\n  " ++ formula ++ "\n" ++
      String.ofList (caretLine (d.caretsFrom formula.toList) (d.caretCount formula.toList)) := by
  rw [ofList_caretLine]
  unfold rendered
  simp only [String.append_assoc]
  rfl

variable {d : Diagnostic} {tab : Nat} {formula : List Char}

-- A span that starts at a boundary gets its carets right: there is one for every character that is to be marked.
section

variable {done rest : List Char} (whole : formula = done ++ rest) (starts : byteLength done = d.span.start)

include whole starts

theorem caretsFrom_eq : d.caretsFrom formula = done.length := by
  subst whole
  have inside : d.span.start ≤ byteLength (done ++ rest) := by
    rw [byteLength_append]
    omega
  rw [caretsFrom,Nat.min_eq_left inside,← starts,beforeByte,dropBytes_append]
  simp

theorem caretCount_eq : d.caretCount formula = max (coverBytes d.length rest).length 1 := by
  subst whole
  have inside : d.span.start ≤ byteLength (done ++ rest) := by
    rw [byteLength_append]
    omega
  have place : d.snippetStart (done ++ rest) = d.span.start := Nat.min_eq_left inside
  rw [caretCount,snippetChars_eq ⟨done,rfl,starts.trans place.symm⟩]

theorem touches_iff {k : Nat} :
    d.Touches formula k ↔ done.length ≤ k ∧ k < done.length + (coverBytes d.length rest).length := by
  subst whole
  constructor
  · rintro ⟨inside,before,behind⟩
    have reached : done.length ≤ k := by
      by_contra short
      have earlier : byteLength ((done ++ rest).take (k + 1)) ≤ byteLength ((done ++ rest).take done.length) :=
        byteLength_take_mono (by omega)
      rw [List.take_left] at earlier
      omega
    obtain ⟨j,rfl⟩ := Nat.exists_eq_add_of_le reached
    rw [List.take_length_add_append,byteLength_append] at before
    rw [List.length_append] at inside
    have covered : j < (coverBytes d.length rest).length := lt_length_coverBytes.mpr ⟨by omega,by omega⟩
    omega
  · rintro ⟨reached,before⟩
    obtain ⟨j,rfl⟩ := Nat.exists_eq_add_of_le reached
    obtain ⟨inside,begins⟩ := lt_length_coverBytes.mp (Nat.lt_of_add_lt_add_left before)
    refine ⟨by rw [List.length_append]; omega,?_,?_⟩
    · rw [List.take_length_add_append,byteLength_append]
      omega
    · have filled : rest.take (j + 1) ≠ [] := List.ne_nil_of_length_pos (by rw [List.length_take]; omega)
      have := byteLength_pos filled
      rw [Nat.add_assoc,List.take_length_add_append,byteLength_append]
      omega

theorem marks_iff {k : Nat} :
    d.Marks formula k ↔ d.caretsFrom formula ≤ k ∧ k < d.caretsFrom formula + d.caretCount formula := by
  rw [Marks,caretsFrom_eq whole starts,caretCount_eq whole starts,touches_iff whole starts,whole,byteLength_append,
    List.length_append]
  cases rest with
  | nil =>
    have none : coverBytes d.length [] = [] := by cases d.length <;> rfl
    rw [none]
    simp only [List.length_nil,byteLength]
    omega
  | cons c cs =>
    have first : 0 < (coverBytes d.length (c :: cs)).length :=
      lt_length_coverBytes.mpr ⟨Nat.zero_lt_succ _,Nat.lt_of_lt_of_le Nat.one_pos (Nat.le_max_right _ _)⟩
    have := byteLength_pos (List.cons_ne_nil c cs)
    omega

end

theorem Marks.le {k : Nat} (marks : d.Marks formula k) : k ≤ formula.length := by
  rcases marks with ⟨inside,_⟩ | ⟨atEnd,_⟩ <;> omega

theorem shownColumn_succ {k : Nat} {c : Char} (is : formula[k]? = some c) :
    shownColumn tab formula (k + 1) = advance tab (shownColumn tab formula k) c := by
  have shown : (' ' :: ' ' :: formula)[k + 2]? = some c := is
  exact columnOf_succ shown

theorem shownColumn_plain {k : Nat} (inside : k ≤ formula.length)
    (plain : ∀ c ∈ formula.take k, c ≠ '\n' ∧ c ≠ '\t') : shownColumn tab formula k = k + 2 := by
  refine columnOf_plain (Nat.add_le_add_right inside 2) fun c present => ?_
  rcases List.mem_cons.mp present with rfl | present
  · decide
  · rcases List.mem_cons.mp present with rfl | present
    · decide
    · exact plain c present

theorem sameColumns_aligned (positive : 0 < tab) (boundary : IsBoundary formula d.span.start) :
    d.SameColumns tab formula (caretLine (d.caretsFrom formula) (d.caretCount formula)) ↔
      ∀ k, d.Marks formula k → shownColumn tab formula k = k + 2 := by
  obtain ⟨rest,done,whole,starts⟩ := boundary
  have interval {k : Nat} := marks_iff whole starts (k := k)
  have some : 0 < d.caretCount formula := Nat.lt_of_lt_of_le Nat.one_pos (Nat.le_max_right _ _)
  constructor
  · intro same
    have column {k : Nat} (marks : d.Marks formula k) := caretLine_eq_caret.mp ((same _).mpr ⟨k,marks,rfl⟩)
    -- Between two characters that are marked no line ends, or the second one would stand left of all carets.
    have further {k : Nat} (one : d.Marks formula k) (two : d.Marks formula (k + 1)) :
        shownColumn tab formula k < shownColumn tab formula (k + 1) := by
      have inside : k < formula.length := two.le
      have is : formula[k]? = .some formula[k] := List.getElem?_eq_getElem inside
      have shown : shownColumn tab formula (k + 1) = _ := shownColumn_succ is
      rw [shown]
      refine lt_advance positive _ fun breaks => ?_
      rw [advance,if_pos breaks] at shown
      have := column two
      omega
    have apart {a b : Nat} (le : a ≤ b) (one : d.Marks formula a) (two : d.Marks formula b) :
        shownColumn tab formula a + (b - a) ≤ shownColumn tab formula b := by
      induction b, le using Nat.le_induction with
      | base => omega
      | succ b le ih =>
        have before : d.Marks formula b := by
          rw [interval] at one two ⊢
          omega
        have := ih before
        have := further before two
        omega
    intro k marks
    have range := interval.mp marks
    have first : d.Marks formula (d.caretsFrom formula) := interval.mpr (by omega)
    have last : d.Marks formula (d.caretsFrom formula + d.caretCount formula - 1) := interval.mpr (by omega)
    have := apart range.1 first marks
    have := apart (by omega) marks last
    have := column first
    have := column last
    omega
  · intro columns column
    rw [caretLine_eq_caret]
    constructor
    · intro range
      have marks : d.Marks formula (column - 2) := interval.mpr (by omega)
      exact ⟨column - 2,marks,by rw [columns _ marks]; omega⟩
    · rintro ⟨k,marks,rfl⟩
      rw [columns k marks]
      have := interval.mp marks
      omega

theorem exists_marks (d : Diagnostic) (formula : List Char) : ∃ k, d.Marks formula k := by
  rcases Nat.lt_or_ge d.span.start (byteLength formula) with inside | outside
  · obtain ⟨k,present,before,behind⟩ := exists_character inside
    exact ⟨k,.inl ⟨present,by unfold length; omega,behind⟩⟩
  · exact ⟨formula.length,.inr ⟨rfl,outside⟩⟩

theorem onLastLine_iff (plain : ∀ k, d.Marks formula k → ∀ c ∈ formula.take k, c ≠ '\n' ∧ c ≠ '\t') :
    (∀ k, d.Marks formula k → OnLastLine formula k) ↔ '\n' ∉ formula := by
  constructor
  · intro last breaks
    obtain ⟨k,marks⟩ := exists_marks d formula
    rw [← List.take_append_drop k formula] at breaks
    rcases List.mem_append.mp breaks with before | behind
    · exact (plain k marks _ before).1 rfl
    · exact last k marks behind
  · exact fun noBreak k _ behind => noBreak (List.mem_of_mem_drop behind)

theorem marks_last (inside : d.span.start < byteLength formula) (toEnd : d.span.stop = byteLength formula) :
    d.Marks formula (formula.length - 1) := by
  have filled : formula ≠ [] := by
    rintro rfl
    cases inside
  have some := List.length_pos_iff.mpr filled
  have whole : formula.take (formula.length - 1) ++ [formula.getLast filled] = formula := by
    rw [← List.dropLast_eq_take]
    exact List.dropLast_concat_getLast filled
  have shorter : byteLength (formula.take (formula.length - 1)) < byteLength formula := by
    conv => rhs; rw [← whole,byteLength_append]
    have := byteLength_pos (List.cons_ne_nil (formula.getLast filled) [])
    omega
  refine .inl ⟨by omega,?_,?_⟩
  · unfold length Span.length
    omega
  · rw [Nat.sub_add_cancel some,List.take_length]
    exact inside

-- A span that starts inside a character is given one caret, under the first character of the formula.
section

variable (inside : d.span.start < byteLength formula) (cut : ¬IsBoundary formula d.span.start)

include inside cut

theorem carets_cut : d.caretsFrom formula = 0 ∧ d.caretCount formula = 1 := by
  have place : d.snippetStart formula = d.span.start := Nat.min_eq_left (Nat.le_of_lt inside)
  rw [caretsFrom,caretCount,snippetChars_cut (by rwa [place]),beforeByte,
    Nat.min_eq_left (Nat.le_of_lt inside),dropBytes_eq_none cut]
  exact ⟨rfl,rfl⟩

theorem sameColumns_cut : d.SameColumns tab formula (caretLine (d.caretsFrom formula) (d.caretCount formula)) ↔
    ∀ k, d.Marks formula k → shownColumn tab formula k = 2 := by
  obtain ⟨first,one⟩ := carets_cut inside cut
  have range {column : Nat} : 0 + 2 ≤ column ∧ column < 0 + 2 + 1 ↔ column = 2 := by omega
  rw [first,one]
  simp only [SameColumns,caretLine_eq_caret,range]
  constructor
  · exact fun same k marks => (same _).mpr ⟨k,marks,rfl⟩
  · intro columns column
    constructor
    · rintro rfl
      obtain ⟨k,marks⟩ := exists_marks d formula
      exact ⟨k,marks,columns k marks⟩
    · rintro ⟨k,marks,rfl⟩
      exact columns k marks

-- A span to the end of a formula of more than one character has too few carets then.
theorem sameColumns_cut_plain (toEnd : d.span.stop = byteLength formula)
    (plain : ∀ k, d.Marks formula k → ∀ c ∈ formula.take k, c ≠ '\n' ∧ c ≠ '\t') :
    d.SameColumns tab formula (caretLine (d.caretsFrom formula) (d.caretCount formula)) ↔ formula.length = 1 := by
  rw [sameColumns_cut inside cut]
  constructor
  · intro columns
    obtain ⟨_,present,_⟩ := exists_character inside
    have last := marks_last inside toEnd
    have := columns _ last
    rw [shownColumn_plain last.le (plain _ last)] at this
    omega
  · intro one k marks
    rcases marks with ⟨first,_⟩ | ⟨_,outside⟩
    · obtain rfl : k = 0 := by omega
      rfl
    · omega

end

end Diagnostic
end TypedFormula
