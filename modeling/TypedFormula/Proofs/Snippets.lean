import Mathlib.Order.Bounds.Basic
import TypedFormula.Diagnostic
import TypedFormula.Proofs.LosslessLexing

namespace TypedFormula
namespace Text

variable {cs rest piece : List Char} {n start stop : Nat}

theorem dropBytes_eq_some : dropBytes n cs = some rest ↔ SplitsAt cs n rest := by
  constructor
  · intro dropped
    fun_induction dropBytes n cs with
    | case1 cs =>
      cases dropped
      exact ⟨[],rfl,rfl⟩
    | case2 => cases dropped
    | case3 n c cs fits ih =>
      obtain ⟨done,rfl,length⟩ := ih dropped
      refine ⟨c :: done,rfl,?_⟩
      simp only [byteLength]
      omega
    | case4 => cases dropped
  · rintro ⟨done,rfl,rfl⟩
    exact dropBytes_append done rest

theorem dropBytes_eq_none (cut : ¬IsBoundary cs n) : dropBytes n cs = none := by
  rw [Option.eq_none_iff_forall_ne_some]
  exact fun rest dropped => cut ⟨rest,dropBytes_eq_some.mp dropped⟩

theorem isBoundary_iff : isBoundary cs n = true ↔ IsBoundary cs n := by
  rw [isBoundary,Option.isSome_iff_exists]
  exact exists_congr fun rest => dropBytes_eq_some

theorem boundaryFrom_least (inside : n ≤ byteLength cs) :
    IsLeast {b | IsBoundary cs b ∧ n ≤ b} (boundaryFrom cs n inside) := by
  fun_induction boundaryFrom cs n inside with
  | case1 n inside boundary => exact ⟨⟨isBoundary_iff.mp boundary,Nat.le_refl n⟩,fun b ⟨_,le⟩ => le⟩
  | case2 n inside cut ih =>
    obtain ⟨⟨boundary,further⟩,least⟩ := ih
    refine ⟨⟨boundary,Nat.le_of_succ_le further⟩,fun b ⟨other,le⟩ => least ⟨other,?_⟩⟩
    refine Nat.lt_of_le_of_ne le ?_
    rintro rfl
    exact cut (isBoundary_iff.mpr other)

theorem IsBoundary.le (boundary : IsBoundary cs n) : n ≤ byteLength cs := by
  obtain ⟨rest,splits⟩ := boundary
  exact Nat.le.intro splits.length

theorem exists_between (starts : SplitsAt cs start rest) (stops : IsBoundary cs stop) (ordered : start ≤ stop) :
    ∃ piece behind, rest = piece ++ behind ∧ stop = start + byteLength piece := by
  obtain ⟨done,rfl,rfl⟩ := starts
  obtain ⟨behind,front,whole,rfl⟩ := stops
  rcases List.append_eq_append_iff.mp whole with ⟨piece,rfl,rfl⟩ | ⟨extra,rfl,rfl⟩
  · exact ⟨piece,behind,rfl,byteLength_append done piece⟩
  · have none : extra = [] := by
      by_contra filled
      have := byteLength_pos filled
      rw [byteLength_append] at ordered
      omega
    subst none
    exact ⟨[],_,rfl,by rw [List.append_nil]; rfl⟩

def coverBytes : Nat → List Char → List Char
  | 0, _ => []
  | _ + 1, [] => []
  | n + 1, c :: cs => c :: coverBytes (n + 1 - c.utf8Size) cs

theorem coverBytes_prefix (n : Nat) (cs : List Char) : ∃ rest, coverBytes n cs ++ rest = cs := by
  fun_induction coverBytes n cs with
  | case1 cs => exact ⟨cs,rfl⟩
  | case2 => exact ⟨[],rfl⟩
  | case3 n c cs ih =>
    obtain ⟨rest,whole⟩ := ih
    exact ⟨rest,congrArg (c :: ·) whole⟩

theorem le_byteLength_coverBytes (n : Nat) (cs : List Char) :
    min n (byteLength cs) ≤ byteLength (coverBytes n cs) := by
  fun_induction coverBytes n cs with
  | case1 cs => exact Nat.min_le_left 0 _
  | case2 => exact Nat.min_le_right _ _
  | case3 n c cs ih =>
    simp only [byteLength]
    omega

theorem coverBytes_least (boundary : IsBoundary cs stop) (le : min n (byteLength cs) ≤ stop) :
    byteLength (coverBytes n cs) ≤ stop := by
  fun_induction coverBytes n cs generalizing stop with
  | case1 cs => exact Nat.zero_le stop
  | case2 => exact Nat.zero_le stop
  | case3 n c cs ih =>
    have positive := c.utf8Size_pos
    obtain ⟨rest,done,whole,rfl⟩ := boundary
    cases done with
    | nil =>
      simp only [byteLength] at le
      omega
    | cons first done =>
      obtain ⟨rfl,rfl⟩ := List.cons.inj whole
      simp only [byteLength] at le ⊢
      have ends : IsBoundary (done ++ rest) (byteLength done) := ⟨rest,done,rfl,rfl⟩
      have := ih ends (by omega)
      omega

theorem byteLength_toList (s : String) : byteLength s.toList = s.utf8ByteSize := by
  have bytes (cs : List Char) : byteLength cs = (String.ofList cs).utf8ByteSize := by
    induction cs with
    | nil => rfl
    | cons c cs ih =>
      have apart : String.ofList (c :: cs) = String.singleton c ++ String.ofList cs := by
        rw [← String.toList_inj]
        simp
      rw [byteLength,ih,apart,String.utf8ByteSize_append,String.utf8ByteSize_singleton]
  rw [bytes,String.ofList_toList]

theorem isBoundary_toList {s : String} : IsBoundary s.toList n ↔ (⟨n⟩ : String.Pos.Raw).IsValid s := by
  rw [String.Pos.Raw.isValid_iff_exists_append]
  constructor
  · rintro ⟨rest,done,whole,length⟩
    refine ⟨String.ofList done,String.ofList rest,?_,?_⟩
    · rw [← String.ofList_append,← whole,String.ofList_toList]
    · rw [String.Pos.Raw.ext_iff,String.byteIdx_rawEndPos,← byteLength_toList,String.toList_ofList,length]
  · rintro ⟨done,rest,rfl,place⟩
    refine ⟨rest.toList,done.toList,String.toList_append,?_⟩
    rw [byteLength_toList,← String.byteIdx_rawEndPos,← place]

theorem Between.bytes {s : String} (between : Between s.toList start stop piece) :
    (String.ofList piece).toByteArray = s.toByteArray.extract start stop := by
  obtain ⟨rest,⟨done,whole,rfl⟩,rfl⟩ := between
  have apart : s = String.ofList done ++ (String.ofList piece ++ String.ofList rest) := by
    rw [← String.ofList_append,← String.ofList_append,← whole,String.ofList_toList]
  have size (cs : List Char) : byteLength cs = (String.ofList cs).toByteArray.size := by
    rw [String.size_toByteArray,← byteLength_toList,String.toList_ofList]
  rw [apart,String.toByteArray_append,String.toByteArray_append,size,size]
  generalize (String.ofList done).toByteArray = front
  generalize (String.ofList piece).toByteArray = bytes
  generalize (String.ofList rest).toByteArray = behind
  calc bytes = (bytes ++ behind).extract 0 bytes.size := (ByteArray.extract_append_eq_left rfl).symm
    _ = (front ++ (bytes ++ behind)).extract (front.size + 0) (front.size + bytes.size) :=
      ByteArray.extract_append_size_add.symm

end Text

open Text

namespace Diagnostic

variable {d : Diagnostic} {formula rest : List Char}

theorem snippetStart_le (d : Diagnostic) (formula : List Char) : d.snippetStart formula ≤ byteLength formula :=
  Nat.min_le_right _ _

theorem snippetStop_least (d : Diagnostic) (formula : List Char) :
    IsLeast {b | IsBoundary formula b ∧ min (d.snippetStart formula + d.length) (byteLength formula) ≤ b}
      (d.snippetStop formula) :=
  boundaryFrom_least _

theorem snippetStart_le_stop (d : Diagnostic) (formula : List Char) :
    d.snippetStart formula ≤ d.snippetStop formula := by
  have := d.snippetStart_le formula
  have := (d.snippetStop_least formula).1.2
  omega

theorem snippetChars_of_between {piece : List Char}
    (between : Between formula (d.snippetStart formula) (d.snippetStop formula) piece) :
    d.snippetChars formula = piece := by
  have sliced : slice? formula ⟨d.snippetStart formula,d.snippetStop formula⟩ = some piece :=
    slice?_of_between between
  rw [snippetChars,sliced,Option.getD_some]

theorem snippetChars_between (boundary : IsBoundary formula (d.snippetStart formula)) :
    Between formula (d.snippetStart formula) (d.snippetStop formula) (d.snippetChars formula) := by
  obtain ⟨rest,splits⟩ := boundary
  obtain ⟨piece,behind,rfl,reaches⟩ :=
    exists_between splits (d.snippetStop_least formula).1.1 (d.snippetStart_le_stop formula)
  have between : Between formula (d.snippetStart formula) (d.snippetStop formula) piece := ⟨behind,splits,reaches⟩
  rw [snippetChars_of_between between]
  exact between

theorem snippetChars_cut (cut : ¬IsBoundary formula (d.snippetStart formula)) : d.snippetChars formula = [] := by
  rw [snippetChars,slice?,dropBytes_eq_none cut]
  rfl

theorem snippetChars_eq (splits : SplitsAt formula (d.snippetStart formula) rest) :
    d.snippetChars formula = coverBytes d.length rest := by
  obtain ⟨left,whole⟩ := coverBytes_prefix d.length rest
  have length := splits.length
  have onward : SplitsAt formula (d.snippetStart formula) (coverBytes d.length rest ++ left) := by
    rw [whole]
    exact splits
  -- They end at a boundary, and no earlier one is late enough.
  have stops : d.snippetStop formula = d.snippetStart formula + byteLength (coverBytes d.length rest) := by
    refine (d.snippetStop_least formula).unique ⟨⟨⟨left,onward.advance⟩,?_⟩,fun b ⟨boundary,le⟩ => ?_⟩
    · have := le_byteLength_coverBytes d.length rest
      omega
    · obtain ⟨piece,behind,apart,rfl⟩ := exists_between splits boundary (by omega)
      have ends : IsBoundary rest (byteLength piece) := ⟨behind,piece,apart,rfl⟩
      have : byteLength (coverBytes d.length rest) ≤ byteLength piece := coverBytes_least ends (by omega)
      omega
  exact snippetChars_of_between ⟨left,onward,stops⟩

section

variable {text : String}

theorem isValid_snippetStart :
    (⟨min d.span.start text.utf8ByteSize⟩ : String.Pos.Raw).IsValid text ↔
      IsBoundary text.toList (d.snippetStart text.toList) := by
  rw [snippetStart,byteLength_toList,isBoundary_toList]

theorem snippet_bytes (boundary : IsBoundary text.toList (d.snippetStart text.toList)) :
    (d.snippet text).toByteArray =
      text.toByteArray.extract (d.snippetStart text.toList) (d.snippetStop text.toList) :=
  (snippetChars_between boundary).bytes

theorem snippet_cut (cut : ¬IsBoundary text.toList (d.snippetStart text.toList)) : d.snippet text = "" := by
  rw [snippet,snippetChars_cut cut]

-- In front of some text, the search for the end starts behind the first byte.
theorem snippet_filled (boundary : IsBoundary text.toList (d.snippetStart text.toList))
    (inside : d.snippetStart text.toList < byteLength text.toList) : d.snippet text ≠ "" := by
  obtain ⟨rest,_,reaches⟩ := snippetChars_between boundary
  have some : 0 < d.length := Nat.lt_of_lt_of_le Nat.one_pos (Nat.le_max_right _ _)
  have further := (d.snippetStop_least text.toList).1.2
  intro none
  rw [snippet,String.ofList_eq_empty_iff] at none
  rw [none] at reaches
  simp only [byteLength] at reaches
  omega

end

-- What a snippet shows of a formula: the bytes from `start` to `stop`, which are `count` bytes, or as many as
-- there are, and the rest of the last character.
structure Snips (d : Diagnostic) (formula : String) (start count stop : Nat) : Prop where
  -- Where places fit into a machine word, so does the one sum that is formed of them.
  fits : d.span.stop < UInt64.size → formula.utf8ByteSize + 1 < UInt64.size → start + count < UInt64.size
  -- The search for the end passes over no boundary and does not leave the formula.
  least : IsLeast {b | (⟨b⟩ : String.Pos.Raw).IsValid formula ∧ min (start + count) formula.utf8ByteSize ≤ b} stop
  inside : stop ≤ formula.utf8ByteSize
  bytes : (⟨start⟩ : String.Pos.Raw).IsValid formula →
    (d.snippet formula).toByteArray = formula.toByteArray.extract start stop
  cut : ¬(⟨start⟩ : String.Pos.Raw).IsValid formula → d.snippet formula = ""
  -- In front of some text there is something to see, and no byte of the span is left out.
  covers : start < formula.utf8ByteSize → (⟨start⟩ : String.Pos.Raw).IsValid formula → d.snippet formula ≠ "" ∧
    ∀ i, d.span.start ≤ i → i < d.span.stop → i < formula.utf8ByteSize → start ≤ i ∧ i < stop

-- Whatever its span is, a diagnostic has a snippet of every formula, as long as its span as far as the formula
-- and its characters allow.
theorem snippet_exact (d : Diagnostic) (formula : String) :
    d.Snips formula (min d.span.start formula.utf8ByteSize) (max 1 (d.span.stop - d.span.start))
      (d.snippetStop formula.toList) := by
  have start : min d.span.start formula.utf8ByteSize = d.snippetStart formula.toList := by
    rw [snippetStart,byteLength_toList]
  have count : max 1 (d.span.stop - d.span.start) = d.length := Nat.max_comm _ _
  have least := d.snippetStop_least formula.toList
  constructor
  case fits => omega
  case least =>
    simp only [isBoundary_toList,byteLength_toList] at least
    rw [start,count]
    exact least
  case inside =>
    rw [← byteLength_toList]
    exact least.1.1.le
  case bytes =>
    rw [isValid_snippetStart,start]
    exact snippet_bytes
  case cut =>
    rw [isValid_snippetStart]
    exact snippet_cut
  case covers =>
    rw [isValid_snippetStart,start,← byteLength_toList]
    refine fun inside boundary => ⟨snippet_filled boundary inside,fun i first last present => ?_⟩
    have reaches := least.1.2
    rw [← count,← start,byteLength_toList] at reaches
    rw [byteLength_toList] at present
    omega

-- A span that goes past the end of the formula, and one that starts inside a character.
example : (⟨.grammar,"",⟨1,UInt64.size - 1⟩⟩ : Diagnostic).snippet "aé" = "é" ∧
    (⟨.grammar,"",⟨2,0⟩⟩ : Diagnostic).snippet "aé" = "" := by decide +kernel

end Diagnostic
end TypedFormula
