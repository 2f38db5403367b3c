namespace TypedFormula

structure Span where
  start : Nat
  stop : Nat
deriving DecidableEq, Repr

namespace Span

def union (a b : Span) : Span := ⟨min a.start b.start, max a.stop b.stop⟩

-- A span whose end lies before its start is empty.
def length (s : Span) : Nat := s.stop - s.start

def isEmpty (s : Span) : Bool := s.length == 0

def text (s : Span) : String := s!"{s.start}..{s.stop}"

end Span
end TypedFormula
