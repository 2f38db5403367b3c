import TypedFormula.Diagnostic

namespace TypedFormula.CommandLine

inductive Json where
  | null
  | bool (b : Bool)
  -- A number in its final form.
  | number (digits : String)
  | text (s : String)
  | array (items : List Json)
  | object (fields : List (String × Json))

namespace Json

def hexDigits (n : Nat) : List Char :=
  let digits := Nat.toDigits 16 n
  List.replicate (4 - digits.length) '0' ++ digits

-- A character inside a JSON text: only quotes, backslashes and control characters are escaped.
def escapedChar (c : Char) : List Char :=
  if c = '"' then ['\\', '"']
  else if c = '\\' then ['\\', '\\']
  else if c = '\x08' then ['\\', 'b']
  else if c = '\x0c' then ['\\', 'f']
  else if c = '\n' then ['\\', 'n']
  else if c = '\r' then ['\\', 'r']
  else if c = '\t' then ['\\', 't']
  else if c.toNat < 0x20 then ['\\', 'u'] ++ hexDigits c.toNat
  else [c]

def quoted (s : String) : String :=
  String.ofList ('"' :: s.toList.flatMap escapedChar ++ ['"'])

mutual

def render : Json → String
  | .null => "null"
  | .bool b => if b then "true" else "false"
  | .number digits => digits
  | .text s => quoted s
  | .array items => "[" ++ renderItems items ++ "]"
  | .object fields => "\x7b" ++ renderFields fields ++ "\x7d"

def renderItems : List Json → String
  | [] => ""
  | [item] => render item
  | item :: items => render item ++ "," ++ renderItems items

def renderFields : List (String × Json) → String
  | [] => ""
  | [(name, value)] => quoted name ++ ":" ++ render value
  | (name, value) :: fields => quoted name ++ ":" ++ render value ++ "," ++ renderFields fields

end

-- A number that is not finite has no JSON form.
def double (x : Float) : Json :=
  if x.isFinite then
    .number (Binary.jsonLayout.text Binary.binary64 x.toBits.toNat)
  else .null

-- A float is written as the double of the same value.
def float (x : Float32) : Json :=
  match Binary.binary32.decode x.toBits.toNat with
  | .finite negative significand exponent =>
    let (n, d) := Binary.scaled significand 1 (-exponent)
    let bits := Binary.binary64.withSign negative (Binary.binary64.nearest n d)
    .number (Binary.jsonLayout.text Binary.binary64 bits)
  | _ => .null

def ofValue : Value → Json
  | .unit => .null
  | .bool b => .bool b
  | .int n => .number (Value.intText n)
  | .float x => float x
  | .double x => double x
  | value => .text value.toText

def ofNat (n : Nat) : Json := .number (toString n)

def ofSpan (s : Span) : Json := .object [("start", ofNat s.start), ("end", ofNat s.stop)]

def ofDiagnostic (d : Diagnostic) : Json :=
  .object [("kind", .text d.kind.label), ("message", .text d.message), ("span", ofSpan d.span)]

end Json
end TypedFormula.CommandLine
