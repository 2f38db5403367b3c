import TypedFormula.Proofs.BuiltinAnswers
import TypedFormula.Proofs.IntegerOperators
import TypedFormula.Proofs.NumberKinds
import TypedFormula.Proofs.TokenRows

namespace TypedFormula
namespace Text

def Spaced (core whole : List Char) : Prop :=
  ∃ before behind, whole = before ++ (core ++ behind) ∧ (∀ c ∈ before, isBlank c = true) ∧
    ∀ c ∈ behind, isBlank c = true

theorem spaced_trim (cs : List Char) : Spaced (trim cs) cs := by
  refine ⟨cs.takeWhile isBlank,((cs.dropWhile isBlank).reverse.takeWhile isBlank).reverse,?_,
    fun c present => List.mem_takeWhile_imp present,
    fun c present => List.mem_takeWhile_imp (List.mem_reverse.mp present)⟩
  rw [trim,trimLeft,trimRight,← List.reverse_append,List.takeWhile_append_dropWhile,List.reverse_reverse,
    List.takeWhile_append_dropWhile]

theorem Spaced.trim_eq {core whole : List Char} (spaced : Spaced core whole) (filled : core ≠ [])
    (visible : ∀ c ∈ core, isBlank c = false) : trim whole = core := by
  obtain ⟨before,behind,rfl,blank,blanks⟩ := spaced
  exact trim_between blank blanks (fun c first => visible c (List.mem_of_mem_head? first))
    (fun c last => visible c (List.mem_of_mem_getLast? last)) filled

end Text

inductive Sign where
  | none
  | plus
  | minus

namespace Sign

def chars : Sign → List Char
  | none => []
  | plus => ['+']
  | minus => ['-']

def isMinus : Sign → Bool
  | minus => true
  | _ => false

def apply (sign : Sign) (n : Nat) : Int := if sign.isMinus then -n else n

theorem splitSign_chars (sign : Sign) {digits : List Char} (all : ∀ c ∈ digits, c.isDigit = true) :
    Binary.splitSign (sign.chars ++ digits) = (sign.isMinus,digits) := by
  cases sign with
  | none => exact NumberBody.splitSign_digits all
  | plus | minus => rfl

theorem exists_splitSign (cs : List Char) :
    ∃ (sign : Sign) (rest : List Char), cs = sign.chars ++ rest ∧ Binary.splitSign cs = (sign.isMinus,rest) := by
  unfold Binary.splitSign
  split
  · exact ⟨.minus,_,rfl,rfl⟩
  · exact ⟨.plus,_,rfl,rfl⟩
  · exact ⟨.none,_,rfl,rfl⟩

end Sign

def DenotesInt (cs : List Char) (n : Int) : Prop :=
  ∃ (sign : Sign) (digits : List Char), cs = sign.chars ++ digits ∧ digits ≠ [] ∧
    (∀ c ∈ digits, c.isDigit = true) ∧ n = sign.apply (digitsValue digits)

namespace DenotesInt

variable {cs : List Char} {n : Int}

theorem visible (denotes : DenotesInt cs n) : cs ≠ [] ∧ ∀ c ∈ cs, Text.isBlank c = false := by
  obtain ⟨sign,digits,rfl,filled,all,_⟩ := denotes
  refine ⟨by simp [filled],fun c present => ?_⟩
  rcases List.mem_append.mp present with inSign | inDigits
  · cases sign <;> simp only [Sign.chars,List.mem_singleton,List.not_mem_nil] at inSign <;> subst inSign <;> decide
  · exact Lexeme.isBlank_of_isDigit (all c inDigits)

theorem intText (n : Int32) : DenotesInt (Value.intText n).toList n.toInt := by
  unfold Value.intText
  cases n.toInt with
  | ofNat m => exact ⟨.none,Nat.toDigits 10 m,Nat.toList_repr,Nat.toDigits_ne_nil,isDigit_toDigits,
      congrArg Int.ofNat (digitsValue_toDigits m).symm⟩
  | negSucc m =>
    refine ⟨.minus,Nat.toDigits 10 (m + 1),?_,Nat.toDigits_ne_nil,isDigit_toDigits,?_⟩
    · change ("-" ++ Nat.repr (m + 1)).toList = _
      rw [String.toList_append,Nat.toList_repr]
      rfl
    · rw [digitsValue_toDigits]
      rfl

end DenotesInt

namespace Builtins

theorem readBool_boolText (b : Bool) : readBool (Value.boolText b).toList = some b := by
  cases b <;> decide

theorem readInt_split {cs digits : List Char} {sign : Sign} (split : Binary.splitSign cs = (sign.isMinus,digits)) :
    readInt cs = if digits = [] ∨ ¬digits.all Char.isDigit then none
      else if minInt ≤ sign.apply (digitsValue digits) ∧ sign.apply (digitsValue digits) ≤ maxInt then
        some (Int32.ofInt (sign.apply (digitsValue digits)))
      else none := by
  unfold readInt
  rw [split]
  rfl

theorem readInt_eq_some {cs : List Char} {n : Int32} : readInt cs = some n ↔ DenotesInt cs n.toInt := by
  constructor
  · intro read
    obtain ⟨sign,digits,rfl,split⟩ := Sign.exists_splitSign cs
    rw [readInt_split split,Option.ite_none_left_eq_some,Option.ite_none_right_eq_some] at read
    obtain ⟨wellFormed,range,same⟩ := read
    rw [not_or,not_not,List.all_eq_true] at wellFormed
    rw [← Option.some.inj same]
    exact ⟨sign,digits,rfl,wellFormed.1,wellFormed.2,Int32.toInt_ofInt_of_le range.1 (Int.lt_add_one_of_le range.2)⟩
  · rintro ⟨sign,digits,rfl,filled,all,value⟩
    have wellFormed : ¬(digits = [] ∨ ¬digits.all Char.isDigit) := by
      rw [not_or,not_not,List.all_eq_true]
      exact ⟨filled,all⟩
    rw [readInt_split (sign.splitSign_chars all),if_neg wellFormed,← value,if_pos (toInt_inRange n),Int32.ofInt_toInt]

theorem parseArg_eq_ok {α : Type} {read : List Char → Option α} {make : α → Value} {typeName x : String} {v : Value} :
    parseArg read make typeName [.text x] = .ok v ↔ ∃ a, read (Text.trim x.toList) = some a ∧ v = make a := by
  have given : textArg [.text x] 0 = .ok x := rfl
  rw [parseArg,given]
  dsimp only [bind,Except.bind]
  cases read (Text.trim x.toList) with
  | none => exact ⟨nofun,nofun⟩
  | some a => simp [eq_comm]

end Builtins

namespace Decimal

variable (d : Decimal)

def numeral : List Char := pointed (Nat.toDigits 10 d.coefficient) d.scale

theorem numeral_reads : readDigits {} d.numeral = some (d.coefficient,d.scale) ∧
    (∃ c rest, d.numeral = c :: rest ∧ c.isDigit = true) ∧ ∀ c ∈ d.numeral, c.isDigit = true ∨ c = '.' := by
  have value := digitsValue_toDigits d.coefficient
  unfold numeral
  by_cases places : d.scale = 0
  · rw [places,pointed,if_pos rfl]
    refine ⟨?_,?_,fun c present => .inl (isDigit_toDigits c present)⟩
    · have read := readDigits_whole {} rfl (Nat.toDigits 10 d.coefficient) [] isDigit_toDigits
        (by change digitsValue _ < bound; rw [value]; exact d.coefficient_lt)
      rw [List.append_nil] at read
      have seen : (Nat.toDigits 10 d.coefficient).isEmpty = false := by simp
      rw [read,readDigits,seen]
      change some (digitsValue _,0) = _
      rw [value]
    · obtain ⟨c,rest,same⟩ := List.exists_cons_of_ne_nil (Nat.toDigits_ne_nil (n := d.coefficient) (b := 10))
      exact ⟨c,rest,same,isDigit_toDigits c (by rw [same]; exact List.mem_cons_self)⟩
  · obtain ⟨whole,fraction,split,form,long,same⟩ := pointed_parts (isDigit_toDigits (n := d.coefficient)) places
    rw [value] at same
    rw [split]
    refine ⟨?_,form.starts,form.plain⟩
    rw [readDigits_pointed form (by rw [same]; exact d.coefficient_lt) (by rw [long]; exact d.scale_le),same,long]

-- A zero loses its sign when it is read back.
theorem ofChars?_toChars : ofChars? d.toChars = some d.plainZero := by
  obtain ⟨reads,starts,plain⟩ := d.numeral_reads
  cases sign : d.negative with
  | false =>
    have whole : d.toChars = d.numeral := by
      rw [toChars,sign]
      rfl
    rw [whole,ofChars_of_readDigits starts plain reads d.coefficient_lt d.scale_le]
    simp [plainZero,sign]
  | true =>
    have whole : d.toChars = '-' :: d.numeral := by
      rw [toChars,sign]
      rfl
    have unmarked : ('-' :: d.numeral).dropWhile (fun c => !isExponentMark c) = [] := by
      rw [List.dropWhile_eq_nil_iff]
      intro c present
      rcases List.mem_cons.mp present with rfl | behind
      · rfl
      · rcases plain c behind with digit | rfl
        · rw [isExponentMark_of_isDigit digit]
          rfl
        · rfl
    have parts : ofSigned? true d.coefficient d.scale = some d := by
      rw [ofSigned?,dif_pos ⟨d.coefficient_lt,d.scale_le⟩,← sign]
    rw [whole,ofChars?,unmarked]
    change (readDigits {} d.numeral).bind (fun read => ofParts? true read.1 read.2) = _
    rw [reads,Option.bind_some,← map_plainZero_ofSigned?,parts,Option.map_some]

theorem toChars_visible : d.toChars ≠ [] ∧ ∀ c ∈ d.toChars, Text.isBlank c = false := by
  obtain ⟨_,⟨first,rest,starts,_⟩,plain⟩ := d.numeral_reads
  change (if d.negative then ['-'] else []) ++ d.numeral ≠ [] ∧
    ∀ c ∈ (if d.negative then ['-'] else []) ++ d.numeral, _
  refine ⟨by simp [starts],fun c present => ?_⟩
  rcases List.mem_append.mp present with sign | behind
  · split at sign
    · rw [List.mem_singleton.mp sign]
      decide
    · cases sign
  · rcases plain c behind with digit | rfl
    · exact Lexeme.isBlank_of_isDigit digit
    · decide

theorem same_plainZero : d.same d.plainZero = true := by
  rw [same_iff,signed_plainZero]
  rfl

end Decimal

open Builtins

variable {σ : Type} (state : σ)

-- The texts that `ToString` gives, and the values that `Parse` makes of texts.
def TextIs (v : Value) (text : String) : Prop := ComesTo state (registry.method? v "ToString" []) (.text text)

def ParseIs (typeName text : String) (v : Value) : Prop :=
  ComesTo state (registry.staticMethod? typeName "Parse" [.text text]) v

-- A value has a text, and with whatever blanks around it that is parsed as another value.
def ParsesAs (v again : Value) : Prop :=
  ∃ text, TextIs state v text ∧
    ∀ whole : String, Text.Spaced text.toList whole.toList → ParseIs state v.ty.name whole again

structure ParseUndoesText : Prop where
  bools : ∀ b, ParsesAs state (.bool b) (.bool b)
  ints : ∀ n, ParsesAs state (.int n) (.int n)
  decimals : ∀ d, ∃ again, ParsesAs state (.decimal d) (.decimal again) ∧
    Value.same (.decimal d) (.decimal again) = true ∧ again.scale = d.scale
  ints_settle : ∀ x n, ParseIs state "int" x (.int n) →
    ∃ text, TextIs state (.int n) text ∧ ParseIs state "int" text (.int n)
  ints_read : ∀ x v, ParseIs state "int" x v ↔
    ∃ n core, v = .int n ∧ Text.Spaced core x.toList ∧ DenotesInt core n.toInt
  ints_there : ∀ x, (∃ v, ParseIs state "int" x v) ↔
    ∃ n core, Text.Spaced core x.toList ∧ DenotesInt core n ∧ minInt ≤ n ∧ n ≤ maxInt

structure Parseable {α : Type} (info : TypeInfo σ) (ty : Ty) (read : List Char → Option α) (make : α → Value) :
    Prop where
  known : registry.get? ty.name = some info
  textFound : info.findMethod "ToString" [] =
    some ⟨"ToString",[],.text,false,fun v _ => pure (.text v.toText)⟩
  parseFound : info.findStaticMethod "Parse" [.text] =
    some ⟨"Parse",[.text],ty,true,fun _ args => .ofExcept (parseArg read make ty.name args)⟩

namespace Parseable

variable {α : Type} {info : TypeInfo σ} {ty : Ty} {read : List Char → Option α} {make : α → Value} {state}

theorem ofDeclarations (ty : Ty) {declarations : List (Declaration σ)}
    (builtin : .ofDeclarations ty.name declarations ∈ types)
    (text : Entries.latest Method.signature ("ToString",[]) (declarations.filterMap (Declaration.method? false)) =
      some ⟨"ToString",[],.text,false,fun v _ => pure (.text v.toText)⟩)
    (parse : Entries.latest Method.signature ("Parse",[.text]) (declarations.filterMap (Declaration.method? true)) =
      some ⟨"Parse",[.text],ty,true,fun _ args => .ofExcept (parseArg read make ty.name args)⟩) :
    Parseable (.ofDeclarations ty.name declarations) ty read make where
  known := get?_declared builtin
  textFound := by rw [(TypeInfo.ofDeclarations_reflects _ _).methods,text]
  parseFound := by rw [(TypeInfo.ofDeclarations_reflects _ _).staticMethods,parse]

theorem ofBools : Parseable (boolType : TypeInfo σ) .bool readBool .bool :=
  .ofDeclarations .bool (by simp [types,boolType,Ty.name]) rfl rfl

theorem ofInts : Parseable (intType : TypeInfo σ) .int readInt .int :=
  .ofDeclarations .int (by simp [types,intType,Ty.name]) rfl rfl

theorem ofDecimals : Parseable (decimalType : TypeInfo σ) .decimal Decimal.ofChars? .decimal :=
  .ofDeclarations .decimal (by simp [types,decimalType,Ty.name]) rfl rfl

variable (parseable : Parseable info ty read make)

include parseable

theorem textIs {v : Value} (typed : v.ty = ty) : TextIs state v v.toText := by
  subst typed
  rw [TextIs,Registry.method?_found v [] parseable.known parseable.textFound]
  exact ⟨_,rfl,rfl⟩

theorem parseIs_iff {x : String} {v : Value} :
    ParseIs state ty.name x v ↔ ∃ a, read (Text.trim x.toList) = some a ∧ v = make a := by
  rw [ParseIs,Registry.staticMethod?_found [.text x] parseable.known parseable.parseFound,comesTo_ofExcept]
  exact parseArg_eq_ok

theorem parsesAs {v : Value} {a : α} (typed : v.ty = ty) (reads : read v.toText.toList = some a)
    (visible : v.toText.toList ≠ [] ∧ ∀ c ∈ v.toText.toList, Text.isBlank c = false) :
    ParsesAs state v (make a) := by
  refine ⟨v.toText,parseable.textIs typed,fun whole spaced => ?_⟩
  rw [typed,parseable.parseIs_iff,spaced.trim_eq visible.1 visible.2]
  exact ⟨a,reads,rfl⟩

end Parseable

variable {state}

theorem boolText_visible (b : Bool) :
    (Value.boolText b).toList ≠ [] ∧ ∀ c ∈ (Value.boolText b).toList, Text.isBlank c = false := by
  have visible : (Value.boolText b).toList.all (fun c => !Text.isBlank c) = true := by
    cases b <;> rfl
  refine ⟨by cases b <;> exact List.cons_ne_nil _ _,fun c present => ?_⟩
  simpa using List.all_eq_true.mp visible c present

theorem parseIs_int {x : String} {v : Value} : ParseIs state "int" x v ↔
    ∃ n core, v = .int n ∧ Text.Spaced core x.toList ∧ DenotesInt core n.toInt := by
  change ParseIs state Ty.int.name x v ↔ _
  rw [Parseable.ofInts.parseIs_iff]
  constructor
  · rintro ⟨n,read,rfl⟩
    exact ⟨n,_,rfl,Text.spaced_trim x.toList,readInt_eq_some.mp read⟩
  · rintro ⟨n,core,rfl,spaced,denotes⟩
    rw [spaced.trim_eq denotes.visible.1 denotes.visible.2]
    exact ⟨n,readInt_eq_some.mpr denotes,rfl⟩

theorem parse_undoes_text (state : σ) : ParseUndoesText state := by
  have ints (n : Int32) : ParsesAs state (.int n) (.int n) :=
    Parseable.ofInts.parsesAs rfl (readInt_eq_some.mpr (.intText n)) (DenotesInt.intText n).visible
  constructor
  case bools => exact fun b => Parseable.ofBools.parsesAs rfl (readBool_boolText b) (boolText_visible b)
  case ints => exact ints
  case decimals =>
    intro d
    have chars : (Value.decimal d).toText.toList = d.toChars := String.toList_ofList
    have reads : Decimal.ofChars? (Value.decimal d).toText.toList = some d.plainZero := chars ▸ d.ofChars?_toChars
    exact ⟨_,Parseable.ofDecimals.parsesAs rfl reads (chars ▸ d.toChars_visible),d.same_plainZero,rfl⟩
  case ints_settle =>
    intro x n _
    obtain ⟨text,isText,parses⟩ := ints n
    exact ⟨text,isText,parses text ⟨[],[],by simp,nofun,nofun⟩⟩
  case ints_read => exact fun x v => parseIs_int
  case ints_there =>
    intro x
    simp only [parseIs_int]
    constructor
    · rintro ⟨_,n,core,_,spaced,denotes⟩
      exact ⟨n.toInt,core,spaced,denotes,toInt_inRange n⟩
    · rintro ⟨n,core,spaced,denotes,low,high⟩
      have same : (Int32.ofInt n).toInt = n := Int32.toInt_ofInt_of_le low (Int.lt_add_one_of_le high)
      exact ⟨_,_,core,rfl,spaced,by rwa [same]⟩

end TypedFormula
