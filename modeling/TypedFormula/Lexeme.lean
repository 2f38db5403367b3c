import TypedFormula.Fault
import TypedFormula.Text.Blank
import TypedFormula.Text.Letter
import TypedFormula.Text.Numeral
import TypedFormula.Text.Quoted

namespace TypedFormula

structure Lexeme where
  outcome : Except Cause TokenKind
  chars : List Char
  rest : List Char

namespace Lexeme

def startsName (c : Char) : Bool := Text.isLetter c || c == '_'

def continuesName (c : Char) : Bool :=
  Text.isLetter c || Text.isNumeral c || c == '_' || c == '.'

-- A dotted name, or one of the two truth values. A name does not end in a dot.
def ofName (cs : List Char) : Lexeme :=
  let chars := cs.takeWhile continuesName
  let name := String.ofList chars
  let outcome :=
    if chars.getLast? = some '.' then .error (.nameEndsInDot name)
    else if name = "true" then .ok (.bool true)
    else if name = "false" then .ok (.bool false)
    else .ok (.name name)
  ⟨outcome, chars, cs.dropWhile continuesName⟩

def ofText (cs : List Char) : Lexeme :=
  match Text.Quoted.decode cs with
  | none => ⟨.error .unterminatedText, '"' :: cs, []⟩
  | some (payload, rest) =>
    ⟨.ok (.text (String.ofList payload)), '"' :: cs.take (cs.length - rest.length), rest⟩

def isExponentMark (c : Char) : Bool := c == 'e' || c == 'E'

def splitPoint : List Char → List Char × List Char
  | '.' :: cs => ('.' :: cs.takeWhile Char.isDigit, cs.dropWhile Char.isDigit)
  | cs => ([], cs)

-- An exponent mark and the digits behind it, if a mark is next. It takes no sign.
def splitExponent : List Char → List Char × List Char
  | [] => ([], [])
  | c :: cs =>
    if isExponentMark c then (c :: cs.takeWhile Char.isDigit, cs.dropWhile Char.isDigit)
    else ([], c :: cs)

def intKind (body : List Char) : Except Cause TokenKind :=
  if digitsValue body ≤ maxInt then .ok (.int (Int32.ofNat (digitsValue body)))
  else .error (.numberOverflow (String.ofList body))

-- The kind of a body before the suffix of decimals. They have no exponent, and the point may come last.
def decimalKind (body : List Char) : Except Cause TokenKind :=
  if body.any isExponentMark then .error (.malformedNumber (String.ofList body))
  else
    let digits := if body.getLast? = some '.' then body.dropLast else body
    match Decimal.ofChars? digits with
    | some d => .ok (.decimal d)
    | none => .error (.numberOverflow (String.ofList body))

def floatingKind (f : Binary.Format) (make : Nat → TokenKind) (body : List Char) :
    Except Cause TokenKind :=
  match f.readMagnitude body with
  | none => .error (.malformedNumber (String.ofList body))
  | some bits =>
    if bits = f.infinityBits then .error (.numberOverflow (String.ofList body)) else .ok (make bits)

def floatOf (bits : Nat) : Float32 := Float32.ofBits (UInt32.ofNat bits)

def doubleOf (bits : Nat) : Float := Float.ofBits (UInt64.ofNat bits)

-- A number: digits, an optional point, an optional exponent and an optional suffix. The suffix belongs
-- to the lexeme only if the number is one.
def ofNumber (cs : List Char) : Lexeme :=
  let whole := cs.takeWhile Char.isDigit
  let (point, afterPoint) := splitPoint (cs.dropWhile Char.isDigit)
  let (exponent, rest) := splitExponent afterPoint
  let body := whole ++ point ++ exponent
  let suffixed := fun (outcome : Except Cause TokenKind) (suffix : Char) (after : List Char) =>
    match outcome with
    | .ok kind => ⟨.ok kind, body ++ [suffix], after⟩
    | .error cause => ⟨.error cause, body, rest⟩
  match rest with
  | 'm' :: after => suffixed (decimalKind body) 'm' after
  | 'f' :: after => suffixed (floatingKind Binary.binary32 (.float ∘ floatOf) body) 'f' after
  | _ =>
    if point = [] ∧ exponent = [] then ⟨intKind body, body, rest⟩
    else ⟨floatingKind Binary.binary64 (.double ∘ doubleOf) body, body, rest⟩

def single? (c : Char) : Option TokenKind :=
  match c with
  | '+' => some .plus
  | '-' => some .minus
  | '*' => some .star
  | '/' => some .slash
  | '(' => some .leftParen
  | ')' => some .rightParen
  | '[' => some .leftBracket
  | ']' => some .rightBracket
  | '\x7b' => some .leftBrace
  | '\x7d' => some .rightBrace
  | ';' => some .semicolon
  | ':' => some .colon
  | ',' => some .comma
  | '.' => some .dot
  | '^' => some .bitXor
  | '~' => some .not
  | _ => none

def comparison? (first second : Char) : Option TokenKind :=
  match first, second with
  | '<', '=' => some .lessEqual
  | '>', '=' => some .greaterEqual
  | '<', '<' => some .shiftLeft
  | '>', '>' => some .shiftRight
  | _, _ => none

def isComparison (c : Char) : Bool := c == '=' || c == '<' || c == '>'

def comparisonAlone (c : Char) : TokenKind :=
  if c = '=' then .equal else if c = '<' then .less else .greater

-- A comparison sign takes a second one with it even if the two form no operator.
def ofComparison (c : Char) (cs : List Char) : Lexeme :=
  match cs with
  | [] => ⟨.ok (comparisonAlone c), [c], []⟩
  | second :: rest =>
    if isComparison second then
      let outcome := match comparison? c second with
        | some kind => .ok kind
        | none => .error (.invalidOperator (String.ofList [c, second]))
      ⟨outcome, [c, second], rest⟩
    else ⟨.ok (comparisonAlone c), [c], second :: rest⟩

def paired (c second : Char) (alone both : TokenKind) (cs : List Char) : Lexeme :=
  match cs with
  | [] => ⟨.ok alone, [c], []⟩
  | d :: rest => if d = second then ⟨.ok both, [c, d], rest⟩ else ⟨.ok alone, [c], d :: rest⟩

def scan (c : Char) (cs : List Char) : Lexeme :=
  match single? c with
  | some kind => ⟨.ok kind, [c], cs⟩
  | none =>
    if c = '!' then paired c '=' .not .notEqual cs
    else if isComparison c then ofComparison c cs
    else if c = '|' then paired c '|' .bitOr .logicalOr cs
    else if c = '&' then paired c '&' .bitAnd .logicalAnd cs
    else if c = '"' then ofText cs
    else if c.isDigit then ofNumber (c :: cs)
    else if startsName c then ofName (c :: cs)
    else ⟨.error (.invalidCharacter c), [c], cs⟩

end Lexeme
end TypedFormula
