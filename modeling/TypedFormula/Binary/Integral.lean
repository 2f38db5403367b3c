import TypedFormula.Binary.Format

namespace TypedFormula.Binary

inductive Direction where
  | down
  | up
  | nearest

def Direction.apply (way : Direction) (negative : Bool) (n d : Nat) : Nat :=
  match way with
  | .nearest => roundDiv n d
  | .down => if negative && n % d != 0 then n / d + 1 else n / d
  | .up => if !negative && n % d != 0 then n / d + 1 else n / d

-- The bits of the whole number; what has no fraction is left as it is.
def Format.integral (f : Format) (way : Direction) (bits : Nat) : Nat :=
  match f.decode bits with
  | .finite negative significand exponent =>
    if exponent < 0 then
      f.withSign negative (f.nearest (way.apply negative significand (twoPow (-exponent).toNat)) 1)
    else bits
  | _ => bits

end TypedFormula.Binary
