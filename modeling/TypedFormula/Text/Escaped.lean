import TypedFormula.Text.Extender
import TypedFormula.Text.Ignorable
import TypedFormula.Text.Invisible

namespace TypedFormula.Text

def escapedCode (c : Char) : List Char :=
  ['\\', 'u', '\x7b'] ++ Nat.toDigits 16 c.toNat ++ ['\x7d']

-- One character between the quotes `quote`: the other kind of quote needs no escape.
def escapedChar (quote : Char) (c : Char) : List Char :=
  if c = '\x00' then ['\\', '0']
  else if c = '\t' then ['\\', 't']
  else if c = '\r' then ['\\', 'r']
  else if c = '\n' then ['\\', 'n']
  else if c = '\\' then ['\\', '\\']
  else if c = quote then ['\\', quote]
  else if isExtender c || isInvisible c || isIgnorable c then escapedCode c
  else [c]

def escaped (s : String) : String :=
  String.ofList ('"' :: s.toList.flatMap (escapedChar '"') ++ ['"'])

def escapedSingle (c : Char) : String :=
  String.ofList ('\x27' :: escapedChar '\x27' c ++ ['\x27'])

-- A filler is a letter, and is escaped since it would not be seen.
example : escaped "a\u115fb" = "\"a\\u\x7b115f\x7db\"" := by decide +kernel
example : escaped "a\u1100b" = "\"a\u1100b\"" := by decide +kernel

end TypedFormula.Text
