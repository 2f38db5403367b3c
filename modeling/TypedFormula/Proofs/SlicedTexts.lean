import TypedFormula.Proofs.BuiltinAnswers
import TypedFormula.Proofs.IntegerOperators

namespace TypedFormula

-- A part of a text: so many characters behind so many others.
def Slice (s : String) (start count : Int) (part : String) : Prop :=
  ∃ before after : String, s = before ++ part ++ after ∧ (before.length : Int) = start ∧ (part.length : Int) = count

namespace Slice

variable {s part other : String} {start count : Int}

theorem iff_take {first wanted : Nat} : Slice s first wanted part ↔
    first + wanted ≤ s.length ∧ String.ofList ((s.toList.drop first).take wanted) = part := by
  constructor
  · rintro ⟨before,after,rfl,starts,counts⟩
    have first : before.toList.length = first := by rw [String.length_toList]; omega
    have wanted : part.toList.length = wanted := by rw [String.length_toList]; omega
    refine ⟨by simp only [String.length_append]; omega,?_⟩
    rw [String.toList_append,String.toList_append,List.append_assoc,← first,List.drop_left,← wanted,List.take_left,
      String.ofList_toList]
  · rintro ⟨room,rfl⟩
    refine ⟨String.ofList (s.toList.take first),String.ofList (s.toList.drop (first + wanted)),?_,?_,?_⟩
    · rw [← String.ofList_append,← String.ofList_append,List.append_assoc,← List.drop_drop,List.take_append_drop,
        List.take_append_drop,String.ofList_toList]
    · rw [String.length_ofList,List.length_take,String.length_toList]
      omega
    · rw [String.length_ofList,List.length_take,List.length_drop,String.length_toList]
      omega

theorem bounds (slice : Slice s start count part) : 0 ≤ start ∧ 0 ≤ count ∧ start + count ≤ s.length := by
  obtain ⟨before,after,rfl,rfl,rfl⟩ := slice
  simp only [String.length_append]
  omega

theorem exists_iff : (∃ part, Slice s start count part) ↔ 0 ≤ start ∧ 0 ≤ count ∧ start + count ≤ s.length := by
  constructor
  · rintro ⟨part,slice⟩
    exact slice.bounds
  · rintro ⟨starts,counts,room⟩
    obtain ⟨first,rfl⟩ := Int.eq_ofNat_of_zero_le starts
    obtain ⟨wanted,rfl⟩ := Int.eq_ofNat_of_zero_le counts
    exact ⟨_,iff_take.mpr ⟨by omega,rfl⟩⟩

theorem unique (one : Slice s start count part) (two : Slice s start count other) : part = other := by
  obtain ⟨starts,counts,_⟩ := one.bounds
  obtain ⟨first,rfl⟩ := Int.eq_ofNat_of_zero_le starts
  obtain ⟨wanted,rfl⟩ := Int.eq_ofNat_of_zero_le counts
  exact (iff_take.mp one).2.symm.trans (iff_take.mp two).2

theorem join {front rest : String} (isFront : Slice s 0 start front)
    (isRest : Slice s start (s.length - start) rest) : front ++ rest = s := by
  obtain ⟨_,counts,_⟩ := isFront.bounds
  obtain ⟨first,rfl⟩ := Int.eq_ofNat_of_zero_le counts
  obtain ⟨before,after,rfl,starts,ends⟩ := isRest
  have none : after = "" := String.length_eq_zero_iff.mp (by simp only [String.length_append] at ends; omega)
  have whole : Slice (before ++ rest ++ after) 0 first before :=
    ⟨"",rest ++ after,by simp [String.append_assoc],rfl,starts⟩
  rw [isFront.unique whole,none,String.append_empty]

theorem prefix_iff : part.toList <+: s.toList ↔ Slice s 0 part.length part := by
  constructor
  · rintro ⟨rest,whole⟩
    refine ⟨"",String.ofList rest,?_,rfl,rfl⟩
    rw [← String.toList_inj,← whole]
    simp
  · rintro ⟨before,after,rfl,none,_⟩
    rw [String.length_eq_zero_iff.mp (Int.ofNat_eq_zero.mp none)]
    exact ⟨after.toList,by simp⟩

theorem suffix_iff : part.toList <:+ s.toList ↔ Slice s (s.length - part.length) part.length part := by
  constructor
  · rintro ⟨front,whole⟩
    have same : s = String.ofList front ++ part ++ "" := by
      rw [← String.toList_inj,← whole]
      simp
    refine ⟨String.ofList front,"",same,?_,rfl⟩
    rw [same]
    simp
  · rintro ⟨before,after,whole,starts,_⟩
    rw [whole] at starts
    have none : after = "" := String.length_eq_zero_iff.mp (by simp at starts; omega)
    rw [whole,none]
    exact ⟨before.toList,by simp⟩

theorem infix_iff : part.toList <:+: s.toList ↔ ∃ start, Slice s start part.length part := by
  constructor
  · rintro ⟨front,back,whole⟩
    refine ⟨_,String.ofList front,String.ofList back,?_,rfl,rfl⟩
    rw [← String.toList_inj,← whole]
    simp
  · rintro ⟨_,before,after,rfl,_,_⟩
    exact ⟨before.toList,after.toList,by simp⟩

end Slice

namespace Builtins

variable {s part : String}

theorem lengthOf_short (short : s.length ≤ maxInt) : lengthOf s = .ok (s.length : Int) := if_pos short

def wanted (s : String) (start : Int32) : Option Int32 → Int
  | some n => n.toInt
  | none => s.length - start.toInt

def asked (s : String) (start : Int32) : Option Int32 → Int
  | some n => n.toInt
  | none => min (s.length - start.toInt) maxInt

theorem asked_eq_wanted (short : s.length ≤ maxInt) {start : Int32} (starts : 0 ≤ start.toInt) (count : Option Int32) :
    asked s start count = wanted s start count := by
  cases count with
  | some n => rfl
  | none => exact min_eq_left (by omega)

def outOfRange (first wanted total : Int) : Except HostError String :=
  fail s!"Substring({first}, {wanted}) is out of range for a string of length {total}"

theorem substring_short (short : s.length ≤ maxInt) (start : Int32) (count : Option Int32) :
    substring s start count =
      if start.toInt < 0 ∨ asked s start count < 0 ∨ s.length < start.toInt ∨
          s.length - start.toInt < asked s start count then
        outOfRange start.toInt (asked s start count) s.length
      else .ok (String.ofList ((s.toList.drop start.toInt.toNat).take (asked s start count).toNat)) := by
  unfold substring
  rw [lengthOf_short short]
  cases count <;> rfl

theorem substring_eq_ok (short : s.length ≤ maxInt) (start : Int32) (count : Option Int32) :
    substring s start count = .ok part ↔ Slice s start.toInt (wanted s start count) part := by
  rw [substring_short short]
  split
  · rename_i refused
    refine ⟨fun none => (by cases none),fun slice => ?_⟩
    obtain ⟨starts,counts,room⟩ := slice.bounds
    rw [← asked_eq_wanted short starts] at counts room
    omega
  · rename_i accepted
    rw [← asked_eq_wanted short (by omega)]
    obtain ⟨first,isFirst⟩ := Int.eq_ofNat_of_zero_le (show 0 ≤ start.toInt by omega)
    obtain ⟨many,isMany⟩ := Int.eq_ofNat_of_zero_le (show 0 ≤ asked s start count by omega)
    rw [isMany,isFirst] at accepted ⊢
    rw [Slice.iff_take,Except.ok.injEq]
    exact (and_iff_right (by omega)).symm

theorem text_eq_ok {result : Except HostError String} :
    (do .ok (Value.text (← result))) = Except.ok (.text part) ↔ result = .ok part := by
  cases result with
  | error => exact ⟨nofun,nofun⟩
  | ok => simp [bind,Except.bind]

theorem characterAt_eq_ok (s : String) (position : Int32) :
    characterAt s position = .ok part ↔ Slice s position.toInt 1 part := by
  unfold characterAt
  dsimp only
  split
  · rename_i negative
    refine ⟨fun none => (by cases none),fun slice => ?_⟩
    have := slice.bounds
    omega
  · rename_i inside
    obtain ⟨n,isN⟩ := Int.eq_ofNat_of_zero_le (show 0 ≤ position.toInt by omega)
    rw [isN,show (1 : Int) = (1 : Nat) from rfl,Slice.iff_take,Int.toNat_natCast]
    cases found : s.toList[n]? with
    | none =>
      have outside := List.getElem?_eq_none_iff.mp found
      rw [String.length_toList] at outside
      exact ⟨fun none => (by cases none),fun both => by omega⟩
    | some c =>
      obtain ⟨before,is⟩ := List.getElem?_eq_some_iff.mp found
      have first : (s.toList.drop n).take 1 = [c] := by
        rw [List.drop_eq_getElem_cons before,is]
        rfl
      rw [first]
      rw [String.length_toList] at before
      rw [Except.ok.injEq]
      exact (and_iff_right (by omega)).symm

def difference? (a b : Int32) : Option Int32 :=
  if minInt ≤ a.toInt - b.toInt ∧ a.toInt - b.toInt ≤ maxInt then some (a - b) else none

def nearestDifference (a b : Int32) : Int32 := Int32.ofInt (max minInt (min (a.toInt - b.toInt) maxInt))

-- A substring worked out with ints alone, step by step; there is none if a difference leaves the range.
def substringOfInts? (s : String) (start : Int32) (count : Option Int32) : Option (Except HostError String) :=
  match lengthOf s with
  | .error e => some (.error e)
  | .ok length =>
    let total := Int32.ofInt length
    let asked := count.getD (nearestDifference total start)
    let outside := outOfRange start.toInt asked.toInt total.toInt
    if start < 0 ∨ asked < 0 ∨ total < start then some outside
    else (difference? total start).map fun room =>
      if room < asked then outside
      else .ok (String.ofList ((s.toList.drop start.toInt.toNat).take asked.toInt.toNat))

theorem toInt_ofInt_short {n : Nat} (short : n ≤ maxInt) : (Int32.ofInt n).toInt = n :=
  Int32.toInt_ofInt_of_le (by omega) (by unfold maxInt at short; omega)

theorem toInt_nearestDifference (short : s.length ≤ maxInt) (start : Int32) :
    (nearestDifference (Int32.ofInt s.length) start).toInt = min (s.length - start.toInt) maxInt := by
  have range := toInt_inRange start
  unfold minInt at range
  unfold nearestDifference
  rw [toInt_ofInt_short short,max_eq_right (by unfold minInt maxInt at *; omega)]
  exact Int32.toInt_ofInt_of_le (by unfold maxInt at *; omega) (by unfold maxInt at *; omega)

theorem substring_of_ints (s : String) (start : Int32) (count : Option Int32) :
    substringOfInts? s start count = some (substring s start count) := by
  by_cases short : s.length ≤ maxInt
  · have total := toInt_ofInt_short short
    have number : (count.getD (nearestDifference (Int32.ofInt s.length) start)).toInt = asked s start count := by
      cases count with
      | some n => rfl
      | none => exact toInt_nearestDifference short start
    rw [substring_short short]
    unfold substringOfInts?
    rw [lengthOf_short short]
    dsimp only
    simp only [Int32.lt_iff_toInt_lt,Int32.toInt_zero,number,total]
    by_cases outside : start.toInt < 0 ∨ asked s start count < 0 ∨ s.length < start.toInt
    · rw [if_pos outside,if_pos (by omega)]
    · have fits : minInt ≤ s.length - start.toInt ∧ s.length - start.toInt ≤ maxInt := by
        unfold minInt
        omega
      have room : (Int32.ofInt s.length - start).toInt = s.length - start.toInt := by
        unfold minInt maxInt at fits
        rw [Int32.toInt_sub,total,Int.bmod_eq_of_le (by omega) (by omega)]
      rw [if_neg outside,difference?,total,if_pos fits,Option.map_some,room]
      refine congrArg some ?_
      by_cases more : s.length - start.toInt < asked s start count
      · rw [if_pos more,if_pos (by omega)]
      · rw [if_neg more,if_neg (by omega)]
  · unfold substringOfInts? substring
    rw [lengthOf,if_neg short]
    rfl

variable {σ : Type}

theorem get?_string : (registry : Registry σ).get? "string" = some stringType :=
  get?_declared (by simp [types,stringType])

theorem length_answer (s : String) :
    (registry : Registry σ).property? (.text s) "Length" = some (.ofExcept (lengthOfReceiver (.text s))) := by
  have found : (stringType : TypeInfo σ).findMember "Length" =
      some ⟨"Length",.property,.int,false,fun s => .ofExcept (lengthOfReceiver s)⟩ := by
    rw [stringType,(TypeInfo.ofDeclarations_reflects _ _).members]
    rfl
  exact Registry.property?_found (.text s) get?_string found

theorem part_answer (s : String) (i n : Int32) :
    (registry : Registry σ).method? (.text s) "Substring" [.int i,.int n] =
      some (.ofExcept (substringOf (.text s) [.int i,.int n])) := by
  have found : (stringType : TypeInfo σ).findMethod "Substring" [.int,.int] =
      some ⟨"Substring",[.int,.int],.text,false,fun s args => .ofExcept (substringOf s args)⟩ := by
    rw [stringType,(TypeInfo.ofDeclarations_reflects _ _).methods]
    rfl
  exact Registry.method?_found (.text s) [.int i,.int n] get?_string found

theorem rest_answer (s : String) (i : Int32) :
    (registry : Registry σ).method? (.text s) "Substring" [.int i] =
      some (.ofExcept (substringFrom (.text s) [.int i])) := by
  have found : (stringType : TypeInfo σ).findMethod "Substring" [.int] =
      some ⟨"Substring",[.int],.text,false,fun s args => .ofExcept (substringFrom s args)⟩ := by
    rw [stringType,(TypeInfo.ofDeclarations_reflects _ _).methods]
    rfl
  exact Registry.method?_found (.text s) [.int i] get?_string found

theorem character_answer (s : String) (i : Int32) :
    (registry : Registry σ).indexer? (.text s) [.int i] = some (.ofExcept (characterOf (.text s) [.int i])) := by
  have found : (stringType : TypeInfo σ).findIndexer [.int] =
      some ⟨[.int],.text,fun s args => .ofExcept (characterOf s args)⟩ := by
    rw [stringType,(TypeInfo.ofDeclarations_reflects _ _).indexers]
    rfl
  exact Registry.indexer?_found (.text s) [.int i] get?_string found

theorem joined_answer (s t : String) :
    (registry : Registry σ).staticMethod? "string" "Concat" [.text s,.text t] =
      some (.ofExcept (concatTwo [.text s,.text t])) := by
  have found : (stringType : TypeInfo σ).findStaticMethod "Concat" [.text,.text] =
      some ⟨"Concat",[.text,.text],.text,true,fun _ args => .ofExcept (concatTwo args)⟩ := by
    rw [stringType,(TypeInfo.ofDeclarations_reflects _ _).staticMethods]
    rfl
  exact Registry.staticMethod?_found [.text s,.text t] get?_string found

inductive Search where
  | contains
  | startsWith
  | endsWith

def Search.name : Search → String
  | .contains => "Contains"
  | .startsWith => "StartsWith"
  | .endsWith => "EndsWith"

def Search.test : Search → String → String → Bool
  | .contains => containsText
  | .startsWith => startsWithText
  | .endsWith => endsWithText

theorem search_answer (search : Search) (s t : String) :
    (registry : Registry σ).method? (.text s) search.name [.text t] =
      some (.ofExcept (testReceiver search.test (.text s) [.text t])) := by
  have found : (stringType : TypeInfo σ).findMethod search.name [.text] =
      some ⟨search.name,[.text],.bool,false,fun s args => .ofExcept (testReceiver search.test s args)⟩ := by
    rw [stringType,(TypeInfo.ofDeclarations_reflects _ _).methods]
    cases search <;> rfl
  exact Registry.method?_found (.text s) [.text t] get?_string found

end Builtins

open Builtins

variable {σ : Type} (state : σ)

-- The values of `s.Length`, `s.Substring(i, n)`, `s.Substring(i)`, `s[i]`, `string.Concat(s, t)` and of the
-- searches for `t` in `s`, where the accessors give one.
def LengthIs (s : String) (n : Int32) : Prop := ComesTo state (registry.property? (.text s) "Length") (.int n)

def PartIs (s : String) (i n : Int32) (part : String) : Prop :=
  ComesTo state (registry.method? (.text s) "Substring" [.int i,.int n]) (.text part)

def RestIs (s : String) (i : Int32) (rest : String) : Prop :=
  ComesTo state (registry.method? (.text s) "Substring" [.int i]) (.text rest)

def CharacterIs (s : String) (i : Int32) (c : String) : Prop :=
  ComesTo state (registry.indexer? (.text s) [.int i]) (.text c)

def JoinIs (s t whole : String) : Prop :=
  ComesTo state (registry.staticMethod? "string" "Concat" [.text s,.text t]) (.text whole)

def Finds (search : Search) (s t : String) (found : Bool) : Prop :=
  ComesTo state (registry.method? (.text s) search.name [.text t]) (.bool found)

structure TextMembersAgree (s : String) (length : Int32) : Prop where
  part_there : ∀ i n, (∃ part, PartIs state s i n part) ↔
    (0 ≤ i.toInt ∧ i.toInt ≤ length.toInt) ∧ 0 ≤ n.toInt ∧ n.toInt ≤ length.toInt - i.toInt
  part_is : ∀ i n part, PartIs state s i n part ↔ Slice s i.toInt n.toInt part
  rest_there : ∀ i, (∃ rest, RestIs state s i rest) ↔ 0 ≤ i.toInt ∧ i.toInt ≤ length.toInt
  rest_is : ∀ i rest, RestIs state s i rest ↔ PartIs state s i (length - i) rest
  character_is : ∀ i c, CharacterIs state s i c ↔ PartIs state s i 1 c
  joined : ∀ i front rest, PartIs state s 0 i front → RestIs state s i rest →
    ∀ whole, JoinIs state front rest whole ↔ whole = s
  startsWith : ∀ t, ∃ found, Finds state .startsWith s t found ∧
    (found = true ↔ ∃ n, LengthIs state t n ∧ n.toInt ≤ length.toInt ∧ PartIs state s 0 n t)
  endsWith : ∀ t, ∃ found, Finds state .endsWith s t found ∧
    (found = true ↔ ∃ n, LengthIs state t n ∧ n.toInt ≤ length.toInt ∧ PartIs state s (length - n) n t)
  contains : ∀ t, ∃ found, Finds state .contains s t found ∧
    (found = true ↔ ∃ n, LengthIs state t n ∧ n.toInt ≤ length.toInt ∧ ∃ i, PartIs state s i n t)
  ints_suffice : ∀ i count, substringOfInts? s i count = some (substring s i count)

variable {s t part : String} {i n : Int32} {state}

theorem lengthIs_iff : LengthIs state s n ↔ n.toInt = s.length := by
  rw [LengthIs,length_answer,comesTo_ofExcept]
  change (lengthOf s).bind (fun length => .ok (Value.int (Int32.ofInt length))) = .ok (.int n) ↔ _
  by_cases short : s.length ≤ maxInt
  · rw [lengthOf_short short]
    have measured := toInt_ofInt_short short
    constructor
    · rintro ⟨⟩
      exact measured
    · intro same
      rw [← Int32.toInt_inj.mp (measured.trans same.symm)]
      rfl
  · rw [lengthOf,if_neg short]
    refine ⟨fun none => (by cases none),fun same => ?_⟩
    have := (toInt_inRange n).2
    omega

theorem partIs_iff (short : s.length ≤ maxInt) : PartIs state s i n part ↔ Slice s i.toInt n.toInt part := by
  rw [PartIs,part_answer,comesTo_ofExcept]
  exact text_eq_ok.trans (substring_eq_ok short i (some n))

theorem restIs_iff (short : s.length ≤ maxInt) :
    RestIs state s i part ↔ Slice s i.toInt (s.length - i.toInt) part := by
  rw [RestIs,rest_answer,comesTo_ofExcept]
  exact text_eq_ok.trans (substring_eq_ok short i none)

theorem characterIs_iff : CharacterIs state s i part ↔ Slice s i.toInt 1 part := by
  rw [CharacterIs,character_answer,comesTo_ofExcept]
  exact text_eq_ok.trans (characterAt_eq_ok s i)

theorem joinIs_iff {whole : String} : JoinIs state s t whole ↔ whole = s ++ t := by
  rw [JoinIs,joined_answer,comesTo_ofExcept]
  change Except.ok (Value.text (s ++ t)) = .ok (.text whole) ↔ _
  simp [eq_comm]

theorem finds_iff {search : Search} {found : Bool} : Finds state search s t found ↔ search.test s t = found := by
  rw [Finds,search_answer,comesTo_ofExcept]
  change Except.ok (Value.bool (search.test s t)) = .ok (.bool found) ↔ _
  simp

section

variable (short : s.length ≤ maxInt) {length : Int32} (measured : length.toInt = s.length)

include short measured

theorem toInt_behind (starts : 0 ≤ i.toInt) : (length - i).toInt = s.length - i.toInt := by
  have := toInt_inRange i
  rw [Int32.toInt_sub,Int.bmod_eq_of_le (by unfold maxInt at *; omega) (by unfold maxInt at *; omega),measured]

theorem exists_ints {start count : Int} (slice : Slice s start count t) :
    ∃ i n : Int32, i.toInt = start ∧ n.toInt = count ∧ n.toInt ≤ length.toInt := by
  obtain ⟨first,wanted,room⟩ := slice.bounds
  have inRange {x : Int} (low : 0 ≤ x) (high : x ≤ s.length) : (Int32.ofInt x).toInt = x :=
    Int32.toInt_ofInt_of_le (by omega) (by unfold maxInt at short; omega)
  exact ⟨_,_,inRange first (by omega),inRange wanted (by omega),by rw [inRange wanted (by omega)]; omega⟩

theorem restIs_iff_partIs : RestIs state s i part ↔ PartIs state s i (length - i) part := by
  rw [restIs_iff short,partIs_iff short]
  -- Before the text, where the difference may leave the range of ints, neither of them has a value.
  by_cases starts : 0 ≤ i.toInt
  · rw [toInt_behind short measured starts]
  · exact ⟨fun slice => absurd slice.bounds.1 starts,fun slice => absurd slice.bounds.1 starts⟩

theorem startsWithText_iff : startsWithText s t = true ↔
    ∃ n, LengthIs state t n ∧ n.toInt ≤ length.toInt ∧ PartIs state s 0 n t := by
  simp only [lengthIs_iff,partIs_iff short]
  rw [startsWithText,List.isPrefixOf_iff_prefix,Slice.prefix_iff]
  constructor
  · intro slice
    obtain ⟨_,n,_,counts,fits⟩ := exists_ints short measured slice
    exact ⟨n,counts,fits,counts ▸ slice⟩
  · rintro ⟨n,counts,_,slice⟩
    exact counts ▸ slice

theorem endsWithText_iff : endsWithText s t = true ↔
    ∃ n, LengthIs state t n ∧ n.toInt ≤ length.toInt ∧ PartIs state s (length - n) n t := by
  simp only [lengthIs_iff,partIs_iff short]
  rw [endsWithText,List.isSuffixOf_iff_suffix,Slice.suffix_iff]
  constructor
  · intro slice
    obtain ⟨_,n,_,counts,fits⟩ := exists_ints short measured slice
    exact ⟨n,counts,fits,by rwa [toInt_behind short measured (by omega),counts]⟩
  · rintro ⟨n,counts,_,slice⟩
    rwa [toInt_behind short measured (by omega),counts] at slice

theorem containsText_iff : containsText s t = true ↔
    ∃ n, LengthIs state t n ∧ n.toInt ≤ length.toInt ∧ ∃ i, PartIs state s i n t := by
  simp only [lengthIs_iff,partIs_iff short]
  rw [containsText,Text.containsPart_iff,Slice.infix_iff]
  constructor
  · rintro ⟨start,slice⟩
    obtain ⟨i,n,starts,counts,fits⟩ := exists_ints short measured slice
    exact ⟨n,counts,fits,i,by rwa [starts,counts]⟩
  · rintro ⟨n,counts,_,i,slice⟩
    exact ⟨_,counts ▸ slice⟩

end

theorem text_members_agree (state : σ) (s : String) (short : s.length ≤ maxInt) :
    ∃ length, LengthIs state s length ∧ length.toInt = s.length ∧ TextMembersAgree state s length := by
  obtain ⟨length,measured⟩ : ∃ length : Int32, length.toInt = s.length := ⟨_,toInt_ofInt_short short⟩
  refine ⟨length,lengthIs_iff.mpr measured,measured,?_⟩
  constructor
  case part_there =>
    intro i n
    simp only [partIs_iff short,Slice.exists_iff,measured]
    omega
  case part_is => exact fun i n part => partIs_iff short
  case rest_there =>
    intro i
    simp only [restIs_iff short,Slice.exists_iff,measured]
    omega
  case rest_is => exact fun i rest => restIs_iff_partIs short measured
  case character_is =>
    intro i c
    rw [characterIs_iff,partIs_iff short]
    rfl
  case joined =>
    intro i front rest isFront isRest whole
    rw [joinIs_iff,((partIs_iff short).mp isFront).join ((restIs_iff short).mp isRest)]
  case startsWith => exact fun t => ⟨_,finds_iff.mpr rfl,startsWithText_iff short measured⟩
  case endsWith => exact fun t => ⟨_,finds_iff.mpr rfl,endsWithText_iff short measured⟩
  case contains => exact fun t => ⟨_,finds_iff.mpr rfl,containsText_iff short measured⟩
  case ints_suffice => exact substring_of_ints s

theorem text_members_agree_accented : "héllo".length ≤ maxInt ∧
    ∃ length, LengthIs () "héllo" length ∧ length.toInt = "héllo".length ∧ TextMembersAgree () "héllo" length :=
  ⟨by decide,text_members_agree () "héllo" (by decide)⟩

end TypedFormula
