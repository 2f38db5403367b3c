import TypedFormula.Text.CaseTable

namespace TypedFormula.Text

-- The case form of one character: several characters, a shifted one, or itself.
def caseForm (runs : List CaseRun) (expansions : List (Nat × List Nat)) (c : Char) : List Char :=
  match expansions.find? (·.1 == c.toNat) with
  | some (_, forms) => forms.map Char.ofNat
  | none =>
    match runs.find? (·.covers c.toNat) with
    | some run => [Char.ofNat (c.toNat + run.shift).toNat]
    | none => [c]

def upperForm : Char → List Char := caseForm upperRuns upperExpansions

def lowerForm : Char → List Char := caseForm lowerRuns lowerExpansions

-- Whether the nearest character that counts for case belongs to a word.
def meetsCased (cs : List Char) : Bool :=
  match cs.dropWhile fun c => caseIgnorableRanges.contains c.toNat with
  | [] => false
  | c :: _ => casedRanges.contains c.toNat

def toUpper (cs : List Char) : List Char := cs.flatMap upperForm

-- `before` holds the characters already passed, the latest first.
def lowerAfter (before : List Char) : List Char → List Char
  | [] => []
  | c :: cs =>
    let form := if c = 'Σ' then
        if meetsCased before && !meetsCased cs then ['ς'] else ['σ']
      else lowerForm c
    form ++ lowerAfter (c :: before) cs

def toLower (cs : List Char) : List Char := lowerAfter [] cs

end TypedFormula.Text
