namespace TypedFormula

def digitValue (c : Char) : Nat := c.toNat - '0'.toNat

def digitsValue (cs : List Char) : Nat := cs.foldl (fun n c => n * 10 + digitValue c) 0

-- The digits with a point in front of the last `places` of them, and none when there are no places.
-- A zero stands before the point if no digit does.
def pointed (digits : List Char) (places : Nat) : List Char :=
  if places = 0 then digits
  else
    let padded := List.replicate (places + 1 - digits.length) '0' ++ digits
    padded.take (padded.length - places) ++ '.' :: padded.drop (padded.length - places)

example : pointed ['7'] 2 = ['0', '.', '0', '7'] := rfl
example : pointed ['1', '5', '0'] 1 = ['1', '5', '.', '0'] := rfl

theorem digitsValue_append (xs : List Char) (c : Char) :
    digitsValue (xs ++ [c]) = digitsValue xs * 10 + digitValue c := by
  simp [digitsValue]

end TypedFormula
