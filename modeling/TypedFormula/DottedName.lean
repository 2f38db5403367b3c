import TypedFormula.Span
import TypedFormula.Text.Bytes
import TypedFormula.Text.Search

namespace TypedFormula

structure Segment where
  text : String
  span : Span
deriving DecidableEq

structure DottedName where
  first : Segment
  others : List Segment
deriving DecidableEq

namespace Segment

def place (start : Nat) (piece : List Char) : Segment :=
  ⟨String.ofList piece, ⟨start, start + Text.byteLength piece⟩⟩

-- Parts that follow a part ending at byte `stop`, with a byte for the dot in front of each.
def placeAfter (stop : Nat) : List (List Char) → List Segment
  | [] => []
  | piece :: pieces => place (stop + 1) piece :: placeAfter (place (stop + 1) piece).span.stop pieces

end Segment

namespace DottedName

def ofText (text : String) (start : Nat) : DottedName :=
  let (piece, pieces) := Text.splitDots text.toList
  ⟨.place start piece, Segment.placeAfter (Segment.place start piece).span.stop pieces⟩

def parts (name : DottedName) : List Segment := name.first :: name.others

def text (name : DottedName) : String := ".".intercalate (name.parts.map (·.text))

def splitLast? (name : DottedName) : Option (DottedName × Segment) :=
  match name.others with
  | [] => none
  | second :: rest =>
    some (⟨name.first, (second :: rest).dropLast⟩, (second :: rest).getLast (List.cons_ne_nil _ _))

-- All ways to cut parts into a name, the part behind it and the rest, longer names first.
def cuts (first : Segment) : List Segment → List (DottedName × Segment × List Segment)
  | [] => []
  | second :: rest =>
    (cuts second rest).map (fun (name, member, tail) => (⟨first, name.parts⟩, member, tail)) ++
      [(⟨first, []⟩, second, rest)]

example : (ofText "Acme.Units.Meter" 3).parts.map (fun s => (s.text, s.span)) =
    [("Acme", ⟨3, 7⟩), ("Units", ⟨8, 13⟩), ("Meter", ⟨14, 19⟩)] := by decide
example : (cuts ⟨"a", ⟨0, 1⟩⟩ [⟨"b", ⟨2, 3⟩⟩, ⟨"c", ⟨4, 5⟩⟩]).map (fun cut => cut.1.text) =
    ["a.b", "a"] := by decide

end DottedName
end TypedFormula
