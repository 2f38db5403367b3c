namespace TypedFormula.Text

-- A set of code points as ranges, both ends included.
abbrev CodeRanges := List (Nat × Nat)

def CodeRanges.contains (ranges : CodeRanges) (n : Nat) : Bool :=
  ranges.any fun range => range.1 ≤ n && n ≤ range.2

theorem CodeRanges.contains_iff (ranges : CodeRanges) (n : Nat) :
    ranges.contains n = true ↔ ∃ range ∈ ranges, range.1 ≤ n ∧ n ≤ range.2 := by
  simp [CodeRanges.contains]

end TypedFormula.Text
