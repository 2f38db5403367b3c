namespace TypedFormula.Text.Quoted

-- The body of a literal after its opening quote: what it denotes, and what follows the closing quote.
-- There is none if the quote is never closed.
def decode : List Char → Option (List Char × List Char)
  | [] => none
  | '"' :: cs => some ([], cs)
  | '\\' :: '"' :: cs => (decode cs).map fun read => ('"' :: read.1, read.2)
  | c :: cs => (decode cs).map fun read => (c :: read.1, read.2)

def encode (cs : List Char) : List Char :=
  cs.flatMap fun c => if c = '"' then ['\\', '"'] else [c]

def literal (cs : List Char) : List Char := '"' :: encode cs ++ ['"']

theorem rest_suffix (cs payload rest : List Char) (read : decode cs = some (payload, rest)) :
    ∃ raw, raw ≠ [] ∧ cs = raw ++ rest := by
  fun_induction decode cs generalizing payload with
  | case1 => cases read
  | case2 cs => cases read; exact ⟨['"'],by simp,rfl⟩
  | case3 cs ih =>
      obtain ⟨inner,found,same⟩ := Option.map_eq_some_iff.mp read
      cases same
      obtain ⟨raw,_,split⟩ := ih _ found
      exact ⟨'\\' :: '"' :: raw,by simp,by rw [split]; rfl⟩
  | case4 c cs _ _ ih =>
      obtain ⟨inner,found,same⟩ := Option.map_eq_some_iff.mp read
      cases same
      obtain ⟨raw,_,split⟩ := ih _ found
      exact ⟨c :: raw,by simp,by rw [split]; rfl⟩

end TypedFormula.Text.Quoted
