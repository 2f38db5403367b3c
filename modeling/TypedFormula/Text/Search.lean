namespace TypedFormula.Text

def containsPart (part : List Char) : List Char → Bool
  | [] => part.isEmpty
  | c :: cs => part.isPrefixOf (c :: cs) || containsPart part cs

theorem containsPart_iff (part cs : List Char) : containsPart part cs = true ↔ part <:+: cs := by
  induction cs with
  | nil => simp [containsPart,List.isEmpty_iff]
  | cons c cs ih =>
      simp only [containsPart,Bool.or_eq_true,List.isPrefixOf_iff_prefix,ih,List.infix_cons_iff]

def splitDots : List Char → List Char × List (List Char)
  | [] => ([], [])
  | c :: cs =>
    let (piece, pieces) := splitDots cs
    if c = '.' then ([], piece :: pieces) else (c :: piece, pieces)

end TypedFormula.Text
