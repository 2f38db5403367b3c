import TypedFormula.Binary.Numeral

namespace TypedFormula.Binary

-- Which of two equally near decimals is written.
inductive Tie where
  | toEven
  | up

def scaledTen (n d : Nat) (e : Int) : Nat × Nat :=
  if 0 ≤ e then (n, d * tenPow e.toNat) else (n * tenPow (-e).toNat, d)

def floorLog10 (n d : Nat) : Int :=
  let e := (digitCount n : Int) - digitCount d
  let (a, b) := scaledTen n d e
  if b ≤ a then e else e - 1

-- The decimal at the place 10 ^ e that reads back as `bits` and is nearest to n / d. Only the two
-- neighbours of the ratio need to be tried.
def Format.hit (f : Format) (tie : Tie) (bits n d : Nat) (e : Int) : Option Scientific :=
  let (a, b) := scaledTen n d e
  let below := a / b
  let twice := 2 * (a % b)
  let readsBack := fun k => f.ofScientific k e == bits
  let preferAbove := decide (b < twice) || (twice == b && match tie with
    | .toEven => below % 2 == 1
    | .up => true)
  if readsBack below && readsBack (below + 1) then
    some ⟨if preferAbove then below + 1 else below, e⟩
  else if readsBack below then some ⟨below, e⟩
  else if readsBack (below + 1) then some ⟨below + 1, e⟩
  else none

-- Zeros at the end of a positive significand move into the exponent.
def Scientific.normal (n : Scientific) : Scientific :=
  if ends : 0 < n.significand ∧ n.significand % 10 = 0 then
    Scientific.normal ⟨n.significand / 10, n.exponent + 1⟩
  else n
termination_by n.significand

-- The digits of the finite number significand * 2 ^ exponent. The search ends at the latest with the
-- number's full decimal expansion.
def Format.shortest (f : Format) (tie : Tie) (significand : Nat) (exponent : Int) : Scientific :=
  if significand = 0 then ⟨0, 0⟩
  else
    let (n, d) := scaled significand 1 (-exponent)
    let bits := f.nearest n d
    let top := floorLog10 n d
    let places := (-exponent).toNat
    let count := (top + 1 + places).toNat
    let full := scaledTen n d (-(places : Int))
    let found := (List.range count).findSome? fun i : Nat => f.hit tie bits n d (top - i)
    (found.getD ⟨full.1 / full.2, -(places : Int)⟩).normal

end TypedFormula.Binary
