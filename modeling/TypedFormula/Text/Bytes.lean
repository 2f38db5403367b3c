import TypedFormula.Span

namespace TypedFormula.Text

def byteLength : List Char → Nat
  | [] => 0
  | c :: cs => c.utf8Size + byteLength cs

-- What follows the first `n` bytes; nothing when byte `n` is inside a character or past the end.
def dropBytes : Nat → List Char → Option (List Char)
  | 0, cs => some cs
  | _ + 1, [] => none
  | n + 1, c :: cs => if c.utf8Size ≤ n + 1 then dropBytes (n + 1 - c.utf8Size) cs else none

def beforeByte (n : Nat) (cs : List Char) : Option (List Char) :=
  (dropBytes n cs).map fun rest => cs.take (cs.length - rest.length)

-- The characters of a span. There are none if it does not go from one boundary to another.
def slice? (cs : List Char) (span : Span) : Option (List Char) :=
  (dropBytes span.start cs).bind (beforeByte span.length)

def isBoundary (cs : List Char) (n : Nat) : Bool := (dropBytes n cs).isSome

theorem byteLength_append (xs ys : List Char) :
    byteLength (xs ++ ys) = byteLength xs + byteLength ys := by
  induction xs with
  | nil => simp [byteLength]
  | cons c cs ih => simp only [List.cons_append,byteLength,ih]; omega

theorem dropBytes_zero (cs : List Char) : dropBytes 0 cs = some cs := by
  cases cs <;> rfl

theorem dropBytes_append (xs ys : List Char) : dropBytes (byteLength xs) (xs ++ ys) = some ys := by
  induction xs with
  | nil => exact dropBytes_zero ys
  | cons c cs ih =>
      have positive : 0 < c.utf8Size := c.utf8Size_pos
      obtain ⟨n,size⟩ : ∃ n, byteLength (c :: cs) = n + 1 := ⟨c.utf8Size + byteLength cs - 1,by
        simp only [byteLength]; omega⟩
      have rest : n + 1 - c.utf8Size = byteLength cs := by
        rw [← size]; simp only [byteLength]; omega
      have fits : c.utf8Size ≤ n + 1 := by rw [← size]; simp only [byteLength]; omega
      rw [size]
      simp only [List.cons_append,dropBytes,fits,if_true,rest,ih]

theorem isBoundary_byteLength (cs : List Char) : isBoundary cs (byteLength cs) = true := by
  have dropped := dropBytes_append cs []
  rw [List.append_nil] at dropped
  rw [isBoundary,dropped,Option.isSome_some]

theorem lt_byteLength_of_cut {cs : List Char} {n : Nat} (inside : n ≤ byteLength cs)
    (cut : ¬isBoundary cs n = true) : n < byteLength cs := by
  refine Nat.lt_of_le_of_ne inside ?_
  rintro rfl
  exact cut (isBoundary_byteLength cs)

-- The first boundary from byte `n` on. The search stays inside the text, whose end is a boundary.
def boundaryFrom (cs : List Char) (n : Nat) (inside : n ≤ byteLength cs) : Nat :=
  if boundary : isBoundary cs n then n
  else boundaryFrom cs (n + 1) (lt_byteLength_of_cut inside boundary)
termination_by byteLength cs - n
decreasing_by
  have := lt_byteLength_of_cut inside boundary
  omega

end TypedFormula.Text
