import TypedFormula.Proofs.CutTokens
import TypedFormula.Proofs.IntegerChains
import TypedFormula.Proofs.Soundness

namespace TypedFormula

open Text

variable {σ : Type}

structure Digits where
  chars : List Char
  filled : chars ≠ []
  plain : ∀ c ∈ chars, c.isDigit = true
  fits : digitsValue chars ≤ maxInt

abbrev Blanks := { cs : List Char // ∀ c ∈ cs, isBlank c = true }

-- An operator and the digits behind it, each with the blanks in front of it.
structure Written where
  before : Blanks
  sign : Arithmetic
  between : Blanks
  digits : Digits

structure IntegerSum where
  leading : Blanks
  first : Digits
  links : List Written
  trailing : Blanks

def Arithmetic.char : Arithmetic → Char
  | .add => '+'
  | .subtract => '-'
  | .multiply => '*'
  | .divide => '/'

def Written.chars (w : Written) : List Char := w.before ++ w.sign.char :: (w.between ++ w.digits.chars)

def Digits.numeral (digits : Digits) (start : Nat) : Numeral :=
  ⟨digitsValue digits.chars,⟨start,start + byteLength digits.chars⟩,digits.fits⟩

def Written.link (w : Written) (position : Nat) : Linked Numeral :=
  let sign := position + byteLength w.before
  ⟨w.sign,⟨sign,sign + 1⟩,w.digits.numeral (sign + 1 + byteLength w.between)⟩

def Written.place : Nat → List Written → List (Linked Numeral)
  | _, [] => []
  | position, w :: ws => w.link position :: place (w.link position).operand.span.stop ws

namespace IntegerSum

def chars (s : IntegerSum) : List Char :=
  s.leading ++ (s.first.chars ++ (s.links.flatMap Written.chars ++ s.trailing))

def text (s : IntegerSum) : String := String.ofList s.chars

def chain (s : IntegerSum) : Chain Numeral :=
  let first := s.first.numeral (byteLength s.leading)
  ⟨first,Written.place first.span.stop s.links⟩

def runs (s : IntegerSum) : Chain (Chain Numeral) := Chain.runs s.chain.first s.chain.links

-- The runs from left to right, each from left to right.
def value (s : IntegerSum) : Int := s.runs.value Chain.total

def failure? (s : IntegerSum) : Option Span := s.runs.operands.findSome? Chain.failure?

def levels (s : IntegerSum) : Nat := s.runs.height (Chain.height fun _ => 1)

end IntegerSum

theorem Lexeme.endsNumber_of_isBlank {c : Char} (blank : isBlank c = true) : endsNumber c = true := by
  have other : ∀ d, isBlank d = false → c ≠ d := by
    rintro d visible rfl
    rw [blank] at visible
    cases visible
  have noDigit : c.isDigit = false := by
    rw [Bool.eq_false_iff]
    intro digit
    rw [isBlank_of_isDigit digit] at blank
    cases blank
  simp [endsNumber,isExponentMark,noDigit,other '.' (by decide),other 'e' (by decide),other 'E' (by decide),
    other 'm' (by decide),other 'f' (by decide)]

theorem Written.endsNumber_behind (links : List Written) (trailing : Blanks) :
    ∀ c, (links.flatMap chars ++ trailing.1).head? = some c → Lexeme.endsNumber c = true := by
  have blanks : ∀ (gap : Blanks) (rest : List Char), (∀ c, rest.head? = some c → Lexeme.endsNumber c = true) →
      ∀ c, (gap.1 ++ rest).head? = some c → Lexeme.endsNumber c = true := by
    rintro ⟨gap,blank⟩ rest follows c first
    cases gap with
    | nil => exact follows c first
    | cons d gap =>
      cases first
      exact Lexeme.endsNumber_of_isBlank (blank _ List.mem_cons_self)
  cases links with
  | nil =>
    have ends := blanks trailing [] (fun _ none => by cases none)
    rw [List.append_nil] at ends
    exact ends
  | cons w ws =>
    rw [List.flatMap_cons,chars,List.append_assoc,List.append_assoc]
    refine blanks w.before _ ?_
    rintro _ ⟨⟩
    cases w.sign <;> rfl

namespace Lexer

variable {tokens : List Token} {other : List Char}

theorem scans_digits (position : Nat) (gap : Blanks) (digits : Digits)
    (stops : ∀ c, other.head? = some c → Lexeme.endsNumber c = true)
    (scans : Scans (digits.numeral (position + byteLength gap)).span.stop other tokens) :
    Scans position (gap.1 ++ (digits.chars ++ other)) ((digits.numeral (position + byteLength gap)).token :: tokens) := by
  obtain ⟨chars,filled,plain,fits⟩ := digits
  obtain ⟨c,tail,rfl⟩ := List.exists_cons_of_ne_nil filled
  have digit := plain c List.mem_cons_self
  have scanned : Lexeme.scan c (tail ++ other) = ⟨.ok (.int (Int32.ofNat (digitsValue (c :: tail)))),c :: tail,other⟩ := by
    rw [Lexeme.scan_number digit,← List.cons_append,Lexeme.ofNumber_whole plain stops,Lexeme.intKind,if_pos fits]
  exact .ahead gap.2 (Lexeme.isBlank_of_isDigit digit) scanned scans

theorem scans_sign (position : Nat) (gap : Blanks) (a : Arithmetic)
    (scans : Scans (position + byteLength gap + 1) other tokens) :
    Scans position (gap.1 ++ a.char :: other)
      (⟨a.op.kind,⟨position + byteLength gap,position + byteLength gap + 1⟩⟩ :: tokens) := by
  have one : byteLength [a.char] = 1 := by cases a <;> rfl
  have scanned : Lexeme.scan a.char ([] ++ other) = ⟨.ok a.op.kind,[a.char],other⟩ := by cases a <;> rfl
  have visible : isBlank a.char = false := by cases a <;> decide
  have ahead : Scans position (gap.1 ++ ([a.char] ++ other)) (_ :: tokens) :=
    .ahead gap.2 visible scanned (by rw [one]; exact scans)
  rw [one] at ahead
  exact ahead

theorem scans_links (position : Nat) (links : List Written) (trailing : Blanks) : ∃ last, last.kind = .ending ∧
    Scans position (links.flatMap Written.chars ++ trailing.1)
      ((Written.place position links).flatMap (fun link => [⟨link.sign.op.kind,link.place⟩,link.operand.token]) ++ [last]) := by
  induction links generalizing position with
  | nil =>
    have blank : trailing.1.dropWhile isBlank = [] := List.dropWhile_eq_nil_iff.mpr trailing.2
    exact ⟨_,rfl,.done blank rfl⟩
  | cons w ws ih =>
    obtain ⟨last,ends,scans⟩ := ih (w.link position).operand.span.stop
    refine ⟨last,ends,?_⟩
    have digits := scans_digits _ w.between w.digits (Written.endsNumber_behind ws trailing) scans
    have whole := scans_sign position w.before w.sign digits
    rw [List.flatMap_cons,Written.chars,List.append_assoc,List.append_assoc,List.cons_append,List.append_assoc]
    exact whole

end Lexer

namespace IntegerSum

theorem row_place (position : Nat) (links : List Written) :
    ∃ b, Row (fun link => link.operand.span) position (Written.place position links) b := by
  induction links generalizing position with
  | nil => exact ⟨_,rfl⟩
  | cons w ws ih =>
    obtain ⟨b,row⟩ := ih (w.link position).operand.span.stop
    refine ⟨b,?_,Nat.le_add_right _ _,row⟩
    change position ≤ position + _ + 1 + _
    omega

variable (s : IntegerSum)

theorem scans_chars : ∃ last, last.kind = .ending ∧
    Lexer.Scans 0 s.chars ((s.chain.tokens fun n => [n.token]) ++ [last]) := by
  obtain ⟨last,ends,scans⟩ := Lexer.scans_links s.chain.first.span.stop s.links s.trailing
  refine ⟨last,ends,?_⟩
  have start : 0 + byteLength s.leading.1 = byteLength s.leading.1 := Nat.zero_add _
  have whole := Lexer.scans_digits 0 s.leading s.first (Written.endsNumber_behind s.links s.trailing)
    (by rw [start]; exact scans)
  rw [start] at whole
  exact whole

def tree : Expr σ := s.runs.tree (Chain.tree Numeral.tree)

theorem height_tree : (s.tree : Expr σ).height = s.levels :=
  Chain.height_tree (fun run => Chain.height_tree (fun _ => rfl) run) s.runs

theorem parses (scope : Scope σ) {limits : Limits} (short : byteLength s.chars ≤ limits.maxLength)
    (low : s.levels ≤ limits.maxHeight) : Parser.parse scope limits s.text = .ok s.tree := by
  obtain ⟨last,ends,scans⟩ := s.scans_chars
  obtain ⟨b,row⟩ := row_place s.chain.first.span.stop s.links
  refine Parser.parse_ok_iff.mpr ⟨?_,⟨_,last,?_,Chain.reads_runs (Nat.le_add_right _ _) row ends⟩,?_⟩
  · rw [text,String.toList_ofList]
    exact short
  · rw [Lexer.tokenize_ok_iff,text,String.toList_ofList]
    exact scans
  · rw [height_tree]
    exact low

theorem settles : (s.tree : Expr σ).Settles s.failure? s.value := by
  obtain ⟨b,row⟩ := row_place s.chain.first.span.stop s.links
  exact Chain.settles_runs (Nat.le_add_right _ _) row

theorem dividesByZero_place (position : Nat) (links : List Written) :
    (∀ link ∈ Written.place position links, link.dividesByZero = false) ↔
      ∀ w ∈ links, ¬(w.sign = .divide ∧ digitsValue w.digits.chars = 0) := by
  induction links generalizing position with
  | nil => exact ⟨fun _ => List.forall_mem_nil _,fun _ => List.forall_mem_nil _⟩
  | cons w ws ih =>
    have here : (w.link position).dividesByZero = false ↔ ¬(w.sign = .divide ∧ digitsValue w.digits.chars = 0) := by
      rw [Bool.eq_false_iff,ne_eq,Linked.dividesByZero_iff,Int.natCast_eq_zero]
      rfl
    rw [Written.place,List.forall_mem_cons,List.forall_mem_cons,here,ih]

theorem failure_none_iff : s.failure? = none ↔
    ∀ w ∈ s.links, ¬(w.sign = .divide ∧ digitsValue w.digits.chars = 0) := by
  rw [failure?,List.findSome?_eq_none_iff]
  simp only [Chain.failure_none_iff]
  exact (Chain.dividesByZero_runs _ _).trans (dividesByZero_place _ _)

-- What a formula is answered with: the int that it comes to, or a fault for its first division by zero.
def Answers (succeeds : Int32 → Prop) (fails : Fault → Prop) : Prop :=
  match s.failure? with
  | none => ∃ n : Int32, n.toInt = s.value ∧ succeeds n
  | some span => ∃ fault : Fault, fault.cause.kind = .runtime ∧ fault.span = span ∧ fails fault

variable {s}

theorem Answers.imp {p q : Int32 → Prop} {f g : Fault → Prop} (answers : s.Answers p f) (succeeds : ∀ n, p n → q n)
    (fails : ∀ fault, f fault → g fault) : s.Answers q g := by
  unfold Answers at answers ⊢
  split at answers
  · obtain ⟨n,is,holds⟩ := answers
    exact ⟨n,is,succeeds n holds⟩
  · obtain ⟨fault,runtime,span,holds⟩ := answers
    exact ⟨fault,runtime,span,fails fault holds⟩

theorem answers_tree (s : IntegerSum) (context : Option Object) (state : σ) :
    s.Answers (fun n => s.tree.evaluate context state = .ok (.int n) state)
      (fun fault => s.tree.evaluate context state = .error fault state) := by
  have settles := s.settles (σ := σ)
  unfold Answers
  split
  · rename_i succeeds
    rw [succeeds] at settles
    exact settles context state
  · rename_i span fails
    rw [fails] at settles
    exact ⟨⟨.divisionByZero,span⟩,rfl,rfl,settles context state⟩

end IntegerSum

theorem Engine.compile_of_parses {registry : Registry σ} {context : Option Object} {limits : Limits} {text : String}
    {e : Expr σ} (parsed : Parser.parse (Engine.scope registry context) limits text = .ok e) :
    ∃ notes, Engine.compile registry context limits text = (.ok ⟨e,context⟩,notes) := by
  unfold Parser.parse at parsed
  unfold Engine.compile Engine.parse
  split
  · rename_i ran
    rw [ran] at parsed
    cases parsed
    exact ⟨_,rfl⟩
  · rename_i ran
    rw [ran] at parsed
    cases parsed

-- Int arithmetic with any blanks in it is evaluated to what its runs add up to, or fails where the first run
-- that divides by zero does; it fails only then, and the host is left as it is.
theorem Engine.evaluates_integer_sum (registry : Registry σ) (context : Option Object) (s : IntegerSum) :
    (∀ limits : Limits, byteLength s.chars ≤ limits.maxLength → s.levels ≤ limits.maxHeight →
      ∃ f notes, Engine.compile registry context limits s.text = (.ok f,notes) ∧ ∀ state,
        s.Answers (fun n => f.evaluate state = .ok (.int n) state) (fun fault => f.evaluate state = .error fault state)) ∧
    (byteLength s.chars ≤ ({} : Limits).maxLength → s.levels ≤ ({} : Limits).maxHeight → ∃ notes, ∀ state,
      s.Answers (fun n => Engine.getValue registry context s.text state = (.ok (.int n),notes,state))
        (fun fault => Engine.getValue registry context s.text state = (.error fault,notes,state))) ∧
    (s.failure? = none ↔ ∀ w ∈ s.links, ¬(w.sign = .divide ∧ digitsValue w.digits.chars = 0)) := by
  refine ⟨fun limits short low => ?_,fun short low => ?_,s.failure_none_iff⟩
  · obtain ⟨notes,compiled⟩ := compile_of_parses (s.parses (scope registry context) short low)
    exact ⟨_,notes,compiled,s.answers_tree context⟩
  · obtain ⟨notes,compiled⟩ := compile_of_parses (s.parses (scope registry context) short low)
    refine ⟨notes,fun state => (s.answers_tree context state).imp ?_ ?_⟩
    · intro n evaluated
      unfold getValue CompiledFormula.evaluate
      rw [compiled]
      dsimp only
      rw [evaluated]
    · intro fault evaluated
      unfold getValue CompiledFormula.evaluate
      rw [compiled]
      dsimp only
      rw [evaluated]

def noBlanks : Blanks := ⟨[],List.forall_mem_nil _⟩

def blank : Blanks := ⟨[' '],List.all_eq_true.mp rfl⟩

def wrappedSum : IntegerSum where
  leading := noBlanks
  first := ⟨"2147483647".toList,by decide,List.all_eq_true.mp rfl,by decide⟩
  links := [
    ⟨noBlanks,.multiply,noBlanks,⟨['2'],by decide,List.all_eq_true.mp rfl,by decide⟩⟩,
    ⟨blank,.subtract,blank,⟨['7'],by decide,List.all_eq_true.mp rfl,by decide⟩⟩,
    ⟨blank,.divide,noBlanks,⟨['2'],by decide,List.all_eq_true.mp rfl,by decide⟩⟩]
  trailing := blank

def failingSum : IntegerSum where
  leading := blank
  first := ⟨['8'],by decide,List.all_eq_true.mp rfl,by decide⟩
  links := [
    ⟨noBlanks,.add,noBlanks,⟨['6'],by decide,List.all_eq_true.mp rfl,by decide⟩⟩,
    ⟨noBlanks,.multiply,blank,⟨['4'],by decide,List.all_eq_true.mp rfl,by decide⟩⟩,
    ⟨blank,.divide,noBlanks,⟨['0','0'],by decide,List.all_eq_true.mp rfl,by decide⟩⟩,
    ⟨noBlanks,.divide,noBlanks,⟨['0'],by decide,List.all_eq_true.mp rfl,by decide⟩⟩]
  trailing := noBlanks

theorem Engine.sums_evaluated :
    wrappedSum.text = "2147483647*2 - 7 /2 " ∧ failingSum.text = " 8+6* 4 /00/0" ∧
    (∃ notes, Engine.getValue Builtins.registry none wrappedSum.text () = (.ok (.int (-5)),notes,())) ∧
    ∃ fault notes, Engine.getValue Builtins.registry none failingSum.text () = (.error fault,notes,()) ∧
      fault.cause.kind = .runtime ∧ fault.span = ⟨3,11⟩ := by
  refine ⟨rfl,rfl,?_,?_⟩
  · obtain ⟨_,gives,_⟩ := evaluates_integer_sum (Builtins.registry : Registry Unit) none wrappedSum
    obtain ⟨notes,answers⟩ := gives (by decide) (by decide)
    have succeeds : wrappedSum.failure? = none := by decide
    have comes : wrappedSum.value = -5 := by decide
    have answer := answers ()
    unfold IntegerSum.Answers at answer
    rw [succeeds,comes] at answer
    obtain ⟨n,is,result⟩ := answer
    have five : n = -5 := Int32.toInt_inj.mp is
    exact ⟨notes,by rw [← five]; exact result⟩
  · obtain ⟨_,gives,_⟩ := evaluates_integer_sum (Builtins.registry : Registry Unit) none failingSum
    obtain ⟨notes,answers⟩ := gives (by decide) (by decide)
    have fails : failingSum.failure? = some ⟨3,11⟩ := by decide
    have answer := answers ()
    unfold IntegerSum.Answers at answer
    rw [fails] at answer
    obtain ⟨fault,runtime,span,result⟩ := answer
    exact ⟨fault,notes,result,runtime,span⟩

end TypedFormula
