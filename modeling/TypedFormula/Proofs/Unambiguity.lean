import TypedFormula.Parser
import TypedFormula.Proofs.Grammar

namespace TypedFormula.Grammar

theorem binaryOps_agree : (n : Nat) → ∀ entry ∈ binaryOps n,
    entry.1.binaryOp? = some entry.2 ∧ entry.2.layer = n
  | 0 | 1 | 2 | 3 | 4 | 5 | 6 | 7 | 8 | 9 | 10 => by decide
  | _ + 11 => fun _ present => by cases present

theorem mem_binaryOps_iff (kind : TokenKind) (op : BinaryOp) (n : Nat) :
    (kind,op) ∈ binaryOps n ↔ kind.binaryOp? = some op ∧ op.layer = n := by
  constructor
  · intro present
    exact binaryOps_agree n _ present
  · rintro ⟨is,rfl⟩
    unfold TokenKind.binaryOp? at is
    split at is
    all_goals
      cases is
      try simp [binaryOps,BinaryOp.layer]

theorem mem_unaryOps_iff (kind : TokenKind) (op : UnaryOp) :
    (kind,op) ∈ unaryOps ↔ (kind = .minus ∧ op = .negate) ∨ (kind = .not ∧ op = .not) := by
  simp [unaryOps]

structure Link (n : Nat) where
  token : Token
  op : BinaryOp
  is : (token.kind,op) ∈ binaryOps (n + 1)
  right : Derivation n

def Link.tokens {n : Nat} (link : Link n) : List Token := link.token :: link.right.tokens

namespace Derivation

def first : {n : Nat} → Derivation (n + 1) → Derivation n
  | _, .tighter inside => inside
  | _, .binary left _ _ _ _ => left.first

def links : {n : Nat} → Derivation (n + 1) → List (Link n)
  | _, .tighter _ => []
  | _, .binary left token op is right => left.links ++ [⟨token,op,is,right⟩]

def chain {n : Nat} (first : Derivation n) (links : List (Link n)) : Derivation (n + 1) :=
  links.foldl (fun left link => .binary left link.token link.op link.is link.right) (.tighter first)

theorem chain_first_links : {n : Nat} → (d : Derivation (n + 1)) → chain d.first d.links = d
  | _, .tighter inside => by rw [first,links]; rfl
  | _, .binary left token op is right => by
    have whole := chain_first_links left
    unfold chain at whole ⊢
    rw [first,links,List.foldl_append,whole]
    rfl

theorem tokens_eq : {n : Nat} → (d : Derivation (n + 1)) →
    d.tokens = d.first.tokens ++ d.links.flatMap Link.tokens
  | _, .tighter inside => by simp [tokens,first,links]
  | _, .binary left token op is right => by
    rw [tokens,first,links,List.flatMap_append,← List.append_assoc,← tokens_eq left]
    simp [Link.tokens]

end Derivation

-- The token behind a derivation of this layer does not go on with it.
def Stops (n : Nat) (rest : List Token) : Prop :=
  ∀ token ∈ rest.head?, ∀ m ≤ n, ∀ op, (token.kind,op) ∉ binaryOps m

theorem Stops.mono {n m : Nat} {rest : List Token} (stops : Stops n rest) (fits : m ≤ n) : Stops m rest :=
  fun token present k less op => stops token present k (Nat.le_trans less fits) op

theorem stops_link {n : Nat} (link : Link n) (rest : List Token) : Stops n (link.tokens ++ rest) := by
  intro token present m fits op member
  cases present
  obtain ⟨is,layer⟩ := (mem_binaryOps_iff _ _ _).mp link.is
  obtain ⟨same,other⟩ := (mem_binaryOps_iff _ _ _).mp member
  rw [is] at same
  cases same
  omega

theorem stops_links {n : Nat} (links : List (Link n)) {rest : List Token} (stops : Stops (n + 1) rest) :
    Stops n (links.flatMap Link.tokens ++ rest) := by
  cases links with
  | nil => exact stops.mono (Nat.le_succ n)
  | cons link links =>
    rw [List.flatMap_cons,List.append_assoc]
    exact stops_link link _

-- Derivations of up to `k` tokens are found from the left in only one way.
def Determined (k n : Nat) : Prop :=
  ∀ (d d' : Derivation n) (rest rest' : List Token), d.tokens.length ≤ k → Stops n rest → Stops n rest' →
    d.tokens ++ rest = d'.tokens ++ rest' → d = d' ∧ rest = rest'

theorem unaryOps_exclusive {kind : TokenKind} {op : UnaryOp} (is : (kind,op) ∈ unaryOps) :
    kind.literal? = none ∧ kind ≠ .leftParen ∧ ∀ other, (kind,other) ∈ unaryOps → op = other := by
  simp only [mem_unaryOps_iff] at is ⊢
  rcases is with ⟨rfl,rfl⟩ | ⟨rfl,rfl⟩ <;> simp [TokenKind.literal?]

theorem stops_closing {closing : Token} (closes : closing.kind = .rightParen) (n : Nat)
    (rest : List Token) : Stops n (closing :: rest) := by
  intro token present m _ op member
  cases present
  rw [mem_binaryOps_iff,closes] at member
  cases member.1

theorem determined_primary {k : Nat} (smaller : ∀ j < k, ∀ n, Determined j n) : Determined k 0 := by
  intro d d' rest rest' small stops stops' same
  -- The first token decides between the three kinds, so two derivations of different kinds never meet.
  cases d with
  | literal token value is =>
    cases d' with
    | literal token' value' is' =>
      obtain ⟨rfl,rfl⟩ := List.cons.inj same
      cases is.symm.trans is'
      exact ⟨rfl,rfl⟩
    | group opening inside closing opens closes =>
      obtain ⟨rfl,_⟩ := List.cons.inj same
      rw [opens] at is
      cases is
    | unary token' op is' operand =>
      obtain ⟨rfl,_⟩ := List.cons.inj same
      cases is.symm.trans (unaryOps_exclusive is').1
  | group opening inside closing opens closes =>
    cases d' with
    | literal token value is =>
      obtain ⟨rfl,_⟩ := List.cons.inj same
      rw [opens] at is
      cases is
    | group opening' inside' closing' opens' closes' =>
      obtain ⟨rfl,others⟩ := List.cons.inj same
      simp only [List.append_eq,List.append_assoc] at others
      simp only [Derivation.tokens,List.cons_append,List.length_cons,List.length_append] at small
      -- What is inside is shorter, and a closing parenthesis ends it on both sides.
      obtain ⟨rfl,behind⟩ := smaller (k - 1) (by omega) _ _ _ _ _ (by omega)
        (stops_closing closes _ rest) (stops_closing closes' _ rest') others
      obtain ⟨rfl,rfl⟩ := List.cons.inj behind
      exact ⟨rfl,rfl⟩
    | unary token op is operand =>
      obtain ⟨rfl,_⟩ := List.cons.inj same
      exact absurd opens (unaryOps_exclusive is).2.1
  | unary token op is operand =>
    cases d' with
    | literal token' value is' =>
      obtain ⟨rfl,_⟩ := List.cons.inj same
      cases is'.symm.trans (unaryOps_exclusive is).1
    | group opening inside closing opens closes =>
      obtain ⟨rfl,_⟩ := List.cons.inj same
      exact absurd opens (unaryOps_exclusive is).2.1
    | unary token' op' is' operand' =>
      obtain ⟨rfl,others⟩ := List.cons.inj same
      obtain rfl := (unaryOps_exclusive is).2.2 _ is'
      simp only [Derivation.tokens,List.length_cons] at small
      obtain ⟨rfl,rfl⟩ := smaller (k - 1) (by omega) _ _ _ _ _ (by omega) stops stops' others
      exact ⟨rfl,rfl⟩

theorem determined_links {k n : Nat} (below : Determined k n) (links links' : List (Link n))
    (rest rest' : List Token) (small : (links.flatMap Link.tokens).length ≤ k)
    (stops : Stops (n + 1) rest) (stops' : Stops (n + 1) rest')
    (same : links.flatMap Link.tokens ++ rest = links'.flatMap Link.tokens ++ rest') :
    links = links' ∧ rest = rest' := by
  induction links generalizing links' with
  | nil =>
    cases links' with
    | nil => exact ⟨rfl,same⟩
    | cons link links' =>
      -- The rest would have to start with the operator of the link.
      exact absurd link.is (stops _ (by rw [show rest = _ from same]; rfl) _ (Nat.le_refl _) _)
  | cons link links ih =>
    cases links' with
    | nil =>
      exact absurd link.is (stops' _ (by rw [show rest' = _ from same.symm]; rfl) _ (Nat.le_refl _) _)
    | cons link' links' =>
      simp only [List.flatMap_cons,List.append_assoc] at same
      rw [List.flatMap_cons,List.length_append] at small
      obtain ⟨token,op,is,right⟩ := link
      obtain ⟨token',op',is',right'⟩ := link'
      obtain ⟨rfl,others⟩ := List.cons.inj same
      obtain ⟨isOp,_⟩ := (mem_binaryOps_iff _ _ _).mp is
      obtain ⟨isOp',_⟩ := (mem_binaryOps_iff _ _ _).mp is'
      cases isOp.symm.trans isOp'
      obtain ⟨rfl,behind⟩ := below _ _ _ _
        (by simp only [Link.tokens,List.length_cons] at small ⊢; omega)
        (stops_links _ stops) (stops_links _ stops') others
      obtain ⟨rfl,tail⟩ := ih _ (by omega) behind
      exact ⟨rfl,tail⟩

theorem determined_layer {k n : Nat} (below : Determined k n) : Determined k (n + 1) := by
  intro d d' rest rest' small stops stops' same
  rw [d.tokens_eq,d'.tokens_eq,List.append_assoc,List.append_assoc] at same
  rw [d.tokens_eq,List.length_append] at small
  obtain ⟨first,others⟩ := below _ _ _ _ (by omega) (stops_links _ stops) (stops_links _ stops') same
  obtain ⟨links,behind⟩ := determined_links below _ _ _ _ (by omega) stops stops' others
  refine ⟨?_,behind⟩
  rw [← d.chain_first_links,← d'.chain_first_links,first,links]

theorem determined (k n : Nat) : Determined k n := by
  induction k using Nat.strongRecOn generalizing n with
  | ind k smaller =>
    induction n with
    | zero => exact determined_primary smaller
    | succ n below => exact determined_layer below

theorem Derivation.unique {n : Nat} (d d' : Derivation n) (same : d.tokens = d'.tokens) : d = d' := by
  have stops : Stops n [] := fun _ present => by cases present
  exact (determined _ n d d' [] [] (Nat.le_refl _) stops stops (by rw [same])).1

end TypedFormula.Grammar
