import TypedFormula.Builtins.Conversions
import TypedFormula.Text.LetterCase
import TypedFormula.Text.Search

namespace TypedFormula.Builtins

variable {σ : Type}

-- Lengths are ints, so a text may be too long to have one.
def lengthOf (s : String) : Except HostError Int :=
  if s.length ≤ maxInt then .ok s.length else fail "string is too long"

-- `count` characters from position `start` on, or all that follow.
def substring (s : String) (start : Int32) (count : Option Int32) : Except HostError String := do
  let total ← lengthOf s
  let first := start.toInt
  let wanted := match count with
    | some n => n.toInt
    | none => min (total - first) maxInt
  if first < 0 ∨ wanted < 0 ∨ total < first ∨ total - first < wanted then
    fail s!"Substring({first}, {wanted}) is out of range for a string of length {total}"
  else .ok (String.ofList ((s.toList.drop first.toNat).take wanted.toNat))

def characterAt (s : String) (position : Int32) : Except HostError String :=
  let outside := fail s!"index {position.toInt} is out of range"
  if position.toInt < 0 then outside
  else match s.toList[position.toInt.toNat]? with
    | some c => .ok (String.singleton c)
    | none => outside

def onText (f : List Char → List Char) (s : String) : String := String.ofList (f s.toList)

def containsText (s part : String) : Bool := Text.containsPart part.toList s.toList

def startsWithText (s part : String) : Bool := part.toList.isPrefixOf s.toList

def endsWithText (s part : String) : Bool := part.toList.isSuffixOf s.toList

def lengthOfReceiver (receiver : Value) : Except HostError Value := do
  let length ← lengthOf (← textReceiver receiver)
  .ok (.int (Int32.ofInt length))

def mapReceiver (f : List Char → List Char) (receiver : Value) : Except HostError Value := do
  .ok (.text (onText f (← textReceiver receiver)))

def testReceiver (test : String → String → Bool) (receiver : Value) (args : List Value) :
    Except HostError Value := do
  let s ← textReceiver receiver
  .ok (.bool (test s (← textArg args 0)))

def substringFrom (receiver : Value) (args : List Value) : Except HostError Value := do
  let s ← textReceiver receiver
  .ok (.text (← substring s (← intArg args 0) none))

def substringOf (receiver : Value) (args : List Value) : Except HostError Value := do
  let s ← textReceiver receiver
  let start ← intArg args 0
  .ok (.text (← substring s start (some (← intArg args 1))))

def characterOf (receiver : Value) (args : List Value) : Except HostError Value := do
  let position ← intArg args 0
  .ok (.text (← characterAt (← textReceiver receiver) position))

def concatTwo (args : List Value) : Except HostError Value := do
  let first ← textArg args 0
  .ok (.text (first ++ (← textArg args 1)))

def concatThree (args : List Value) : Except HostError Value := do
  let first ← textArg args 0
  let second ← textArg args 1
  .ok (.text (first ++ second ++ (← textArg args 2)))

def isNullOrEmpty (args : List Value) : Except HostError Value := do
  .ok (.bool (← textArg args 0).isEmpty)

def stringType : TypeInfo σ := .ofDeclarations "string"
  [toStringMethod,
    .valueProperty "Length" .int fun s => .ofExcept (lengthOfReceiver s),
    .valueMethod "ToUpper" [] .text fun s _ => .ofExcept (mapReceiver Text.toUpper s),
    .valueMethod "ToLower" [] .text fun s _ => .ofExcept (mapReceiver Text.toLower s),
    .valueMethod "Trim" [] .text fun s _ => .ofExcept (mapReceiver Text.trim s),
    .valueMethod "Substring" [.int] .text fun s args => .ofExcept (substringFrom s args),
    .valueMethod "Substring" [.int, .int] .text fun s args => .ofExcept (substringOf s args),
    .valueMethod "Contains" [.text] .bool
      fun s args => .ofExcept (testReceiver containsText s args),
    .valueMethod "StartsWith" [.text] .bool
      fun s args => .ofExcept (testReceiver startsWithText s args),
    .valueMethod "EndsWith" [.text] .bool
      fun s args => .ofExcept (testReceiver endsWithText s args),
    .valueIndexer [.int] .text fun s args => .ofExcept (characterOf s args),
    .staticField "Empty" .text (.text ""),
    .staticMethod "Concat" [.text, .text] .text fun args => .ofExcept (concatTwo args),
    .staticMethod "Concat" [.text, .text, .text] .text fun args => .ofExcept (concatThree args),
    .staticMethod "IsNullOrEmpty" [.text] .bool fun args => .ofExcept (isNullOrEmpty args)]

end TypedFormula.Builtins
