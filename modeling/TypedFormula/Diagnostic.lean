import TypedFormula.Fault
import TypedFormula.Text.Bytes

namespace TypedFormula

structure Diagnostic where
  kind : FaultKind
  message : String
  span : Span
deriving DecidableEq

def Fault.diagnostic (f : Fault) : Diagnostic := ⟨f.cause.kind, f.cause.message, f.span⟩

namespace Diagnostic

def text (d : Diagnostic) : String := s!"{d.message} (at {d.span.text})"

-- The number of bytes to mark: at least one, so that the place can be seen.
def length (d : Diagnostic) : Nat := max d.span.length 1

-- Where the marked part starts and stops. It is cut at the end of the formula, and takes in the whole of its
-- last character.
def snippetStart (d : Diagnostic) (formula : List Char) : Nat :=
  min d.span.start (Text.byteLength formula)

def snippetStop (d : Diagnostic) (formula : List Char) : Nat :=
  Text.boundaryFrom formula (min (d.snippetStart formula + d.length) (Text.byteLength formula))
    (Nat.min_le_right _ _)

-- The marked part of the formula. It is empty if the span starts inside a character.
def snippetChars (d : Diagnostic) (formula : List Char) : List Char :=
  (Text.slice? formula ⟨d.snippetStart formula,d.snippetStop formula⟩).getD []

def snippet (d : Diagnostic) (formula : String) : String :=
  String.ofList (d.snippetChars formula.toList)

def rendered (d : Diagnostic) (formula : String) : String :=
  let chars := formula.toList
  let start := min d.span.start (Text.byteLength chars)
  let indent := ((Text.beforeByte start chars).map List.length).getD 0
  let width := max (d.snippetChars chars).length 1
  let carets := String.ofList (List.replicate indent ' ' ++ List.replicate width '^')
  s!"error: {d.message}\n  {formula}\n  {carets}"

end Diagnostic
end TypedFormula
