import TypedFormula.Binary.Shortest

namespace TypedFormula.Binary

structure Layout where
  -- The powers of ten of the leading digit that are written without an exponent, if not all are.
  positional : Option (Int × Int)
  -- Whether a whole number ends in a point and a zero.
  pointZero : Bool
  -- Whether a positive exponent has a sign.
  plus : Bool
  tie : Tie

-- A value shown to the user: never an exponent, and no point where none is needed.
def plainLayout : Layout := ⟨none, false, false, .up⟩

-- A value in a description: always recognisable as floating point.
def describedLayout : Layout := ⟨some (-4, 15), true, false, .up⟩

def jsonLayout : Layout := ⟨some (-5, 15), true, true, .toEven⟩

def Layout.isPositional (l : Layout) (top : Int) : Bool :=
  match l.positional with
  | none => true
  | some (least, greatest) => least ≤ top && top ≤ greatest

def Layout.digits (l : Layout) (n : Scientific) : List Char :=
  let digits := Nat.toDigits 10 n.significand
  let top := n.exponent + (digits.length - 1 : Nat)
  if l.isPositional top then
    if 0 ≤ n.exponent then
      digits ++ List.replicate n.exponent.toNat '0' ++ (if l.pointZero then ['.', '0'] else [])
    else pointed digits (-n.exponent).toNat
  else
    pointed digits (digits.length - 1) ++ 'e' ::
      (if top < 0 then ['-'] else if l.plus then ['+'] else []) ++ Nat.toDigits 10 top.natAbs

def Layout.text (l : Layout) (f : Format) (bits : Nat) : String :=
  match f.decode bits with
  | .nan => "NaN"
  | .infinite negative => if negative then "-inf" else "inf"
  | .finite negative significand exponent =>
    String.ofList <| (if negative then ['-'] else []) ++
      l.digits (f.shortest l.tie significand exponent)

end TypedFormula.Binary
