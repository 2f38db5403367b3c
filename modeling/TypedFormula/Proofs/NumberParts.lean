import TypedFormula.Lexeme

namespace TypedFormula.Lexeme

theorem splitPoint_whole (cs : List Char) : (splitPoint cs).1 ++ (splitPoint cs).2 = cs := by
  unfold splitPoint
  split
  · exact congrArg (List.cons '.') List.takeWhile_append_dropWhile
  · rfl

theorem splitExponent_whole (cs : List Char) : (splitExponent cs).1 ++ (splitExponent cs).2 = cs := by
  unfold splitExponent
  split
  · rfl
  · split
    · exact congrArg (List.cons _) List.takeWhile_append_dropWhile
    · rfl

-- The lexeme of a number by the parts that it is made of, with the suffix still in front of the rest.
def ofParts (whole point exponent rest : List Char) : Lexeme :=
  let body := whole ++ point ++ exponent
  let suffixed := fun (outcome : Except Cause TokenKind) (suffix : Char) (after : List Char) =>
    match outcome with
    | .ok kind => ⟨.ok kind,body ++ [suffix],after⟩
    | .error cause => ⟨.error cause,body,rest⟩
  match rest with
  | 'm' :: after => suffixed (decimalKind body) 'm' after
  | 'f' :: after => suffixed (floatingKind Binary.binary32 (.float ∘ floatOf) body) 'f' after
  | _ =>
    if point = [] ∧ exponent = [] then ⟨intKind body,body,rest⟩
    else ⟨floatingKind Binary.binary64 (.double ∘ doubleOf) body,body,rest⟩

structure NumberParts (cs whole point exponent rest : List Char) : Prop where
  digits : whole = cs.takeWhile Char.isDigit
  pointed : splitPoint (cs.dropWhile Char.isDigit) = (point,exponent ++ rest)
  marked : splitExponent (exponent ++ rest) = (exponent,rest)

theorem numberParts (cs : List Char) : ∃ whole point exponent rest, NumberParts cs whole point exponent rest := by
  have whole := splitExponent_whole (splitPoint (cs.dropWhile Char.isDigit)).2
  refine ⟨_,_,_,_,rfl,Prod.ext rfl whole.symm,?_⟩
  rw [whole]

variable {cs whole point exponent rest : List Char}

namespace NumberParts

theorem eq (parts : NumberParts cs whole point exponent rest) : ofNumber cs = ofParts whole point exponent rest := by
  obtain ⟨rfl,pointed,marked⟩ := parts
  unfold ofNumber
  rw [pointed]
  dsimp only
  rw [marked]
  rfl

theorem split (parts : NumberParts cs whole point exponent rest) : whole ++ point ++ exponent ++ rest = cs := by
  have second := splitPoint_whole (cs.dropWhile Char.isDigit)
  rw [parts.pointed] at second
  rw [List.append_assoc,List.append_assoc,second,parts.digits,List.takeWhile_append_dropWhile]

theorem starts {c : Char} (digit : c.isDigit = true) (parts : NumberParts (c :: cs) whole point exponent rest) :
    ∃ tail, whole ++ point ++ exponent = c :: tail := by
  rw [parts.digits,List.takeWhile_cons_of_pos digit]
  exact ⟨_,rfl⟩

end NumberParts

def numberSuffix (behind : Option Char) : List Char :=
  if behind = some 'm' ∨ behind = some 'f' then behind.toList else []

def numberKind (whole point exponent suffix : List Char) : Except Cause TokenKind :=
  if suffix = ['m'] then decimalKind (whole ++ point ++ exponent)
  else if suffix = ['f'] then floatingKind Binary.binary32 (.float ∘ floatOf) (whole ++ point ++ exponent)
  else if point = [] ∧ exponent = [] then intKind (whole ++ point ++ exponent)
  else floatingKind Binary.binary64 (.double ∘ doubleOf) (whole ++ point ++ exponent)

theorem numberSuffix_none (stops : ∀ c, rest.head? = some c → c ≠ 'm' ∧ c ≠ 'f') : numberSuffix rest.head? = [] := by
  refine if_neg ?_
  rintro (decimal | float)
  · exact (stops 'm' decimal).1 rfl
  · exact (stops 'f' float).2 rfl

theorem numberSuffix_cases (rest : List Char) :
    (numberSuffix rest.head? = ['m'] ∧ ∃ after, rest = 'm' :: after) ∨
    (numberSuffix rest.head? = ['f'] ∧ ∃ after, rest = 'f' :: after) ∨
    numberSuffix rest.head? = [] ∧ ∀ c, rest.head? = some c → c ≠ 'm' ∧ c ≠ 'f' := by
  by_cases decimal : rest.head? = some 'm'
  · exact .inl ⟨by simp [numberSuffix,decimal],List.head?_eq_some_iff.mp decimal⟩
  by_cases float : rest.head? = some 'f'
  · exact .inr (.inl ⟨by simp [numberSuffix,float],List.head?_eq_some_iff.mp float⟩)
  · have stops : ∀ c, rest.head? = some c → c ≠ 'm' ∧ c ≠ 'f' :=
      fun c first => ⟨fun same => decimal (same ▸ first),fun same => float (same ▸ first)⟩
    exact .inr (.inr ⟨numberSuffix_none stops,stops⟩)

theorem numberSuffix_drop (rest : List Char) :
    numberSuffix rest.head? ++ rest.drop (numberSuffix rest.head?).length = rest := by
  rcases numberSuffix_cases rest with ⟨same,after,rfl⟩ | ⟨same,after,rfl⟩ | ⟨same,_⟩ <;> rw [same] <;> rfl

-- The suffix belongs to the lexeme only if the number is one.
theorem ofParts_kind (whole point exponent rest : List Char) : ofParts whole point exponent rest =
    match numberKind whole point exponent (numberSuffix rest.head?) with
    | .ok kind => ⟨.ok kind,whole ++ point ++ exponent ++ numberSuffix rest.head?,
        rest.drop (numberSuffix rest.head?).length⟩
    | .error cause => ⟨.error cause,whole ++ point ++ exponent,rest⟩ := by
  rcases numberSuffix_cases rest with ⟨same,after,rfl⟩ | ⟨same,after,rfl⟩ | ⟨same,plain⟩
  · simp only [ofParts,numberKind,same]
    cases decimalKind (whole ++ point ++ exponent) <;> rfl
  · simp only [ofParts,numberKind,same]
    cases floatingKind Binary.binary32 (.float ∘ floatOf) (whole ++ point ++ exponent) <;> rfl
  · unfold ofParts
    dsimp only
    split
    · exact absurd rfl (plain 'm' rfl).1
    · exact absurd rfl (plain 'f' rfl).2
    · simp only [numberKind,same]
      split
      · cases intKind (whole ++ point ++ exponent) <;> simp
      · cases floatingKind Binary.binary64 (.double ∘ doubleOf) (whole ++ point ++ exponent) <;> simp

theorem ofParts_outcome : (ofParts whole point exponent rest).outcome =
    numberKind whole point exponent (numberSuffix rest.head?) := by
  rw [ofParts_kind]
  split <;> exact Eq.symm (by assumption)

end TypedFormula.Lexeme
