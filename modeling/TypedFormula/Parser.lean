import TypedFormula.Binding
import TypedFormula.Expr.Search
import TypedFormula.Expr.Print
import TypedFormula.Lexer

namespace TypedFormula

structure Limits where
  -- The length in bytes.
  maxLength : Nat := 8192
  -- How deep groups, unary operators and arguments nest.
  maxDepth : Nat := 64
  -- The levels of the tree.
  maxHeight : Nat := 256
deriving DecidableEq, Repr

-- The token to look at, what can be read after it, and the notes so far, the latest first.
structure ParseState where
  current : Token
  rest : List (Except Fault Token)
  notes : List Note

abbrev Parse := EStateM Fault ParseState

namespace Parse

def current : Parse Token := return (← get).current

-- As many readings as are left bound how often anything can repeat.
def tokensLeft : Parse Nat := return (← get).rest.length

-- Moves to the next token. A fault of the lexer shows only now.
def bump : Parse Unit := fun s =>
  match s.rest with
  | [] => .ok () s
  | .ok token :: rest => .ok () { s with current := token, rest := rest }
  | .error fault :: _ => .error fault s

def expect (kind : TokenKind) : Parse Span := do
  let token ← current
  if token.kind = kind then
    bump
    pure token.span
  else throw ⟨.expectedToken kind token.kind, token.span⟩

def bind {α : Type} (binding : Binding α) : Parse α := fun s =>
  match binding s.notes with
  | .ok a notes => .ok a { s with notes := notes }
  | .error fault notes => .error fault { s with notes := notes }

end Parse

def TokenKind.binaryOp? : TokenKind → Option BinaryOp
  | .logicalOr => some .logicalOr
  | .logicalAnd => some .logicalAnd
  | .bitOr => some .bitOr
  | .bitXor => some .bitXor
  | .bitAnd => some .bitAnd
  | .equal => some .equal
  | .notEqual => some .notEqual
  | .less => some .less
  | .lessEqual => some .lessEqual
  | .greater => some .greater
  | .greaterEqual => some .greaterEqual
  | .shiftLeft => some .shiftLeft
  | .shiftRight => some .shiftRight
  | .plus => some .add
  | .minus => some .subtract
  | .star => some .multiply
  | .slash => some .divide
  | _ => none

namespace Parser

variable {σ : Type}

inductive Goal where
  | primary
  | expression

-- The parsers one level further in, or nothing if no level is left.
abbrev Inner (σ : Type) := Option (Goal → Parse (Expr σ))

def nested (limits : Limits) (inner : Inner σ) (span : Span) : Parse (Goal → Parse (Expr σ)) :=
  match inner with
  | some parse => pure parse
  | none => throw ⟨.nestedTooDeep limits.maxDepth, span⟩

-- Expressions separated by commas up to the token `close`, which stays current.
def separated (element : Parse (Expr σ)) (close : TokenKind) : Nat → Parse (List (Expr σ))
  | 0 => pure []
  | steps + 1 => do
    let first ← element
    let token ← Parse.current
    if token.kind = .comma then
      Parse.bump
      return first :: (← separated element close steps)
    else if token.kind = close then pure [first]
    else throw ⟨.expectedSeparator close token.kind, token.span⟩

def arguments (limits : Limits) (inner : Inner σ) (close : TokenKind) :
    Parse (List (Expr σ) × Span) := do
  let opening ← Parse.current
  Parse.bump
  let first ← Parse.current
  let args ← if first.kind = close then pure [] else do
    let element : Parse (Expr σ) := do (← nested limits inner opening.span) .expression
    separated element close ((← Parse.tokensLeft) + 1)
  let closing ← Parse.current
  Parse.bump
  pure (args, closing.span)

def indexer (scope : Scope σ) (limits : Limits) (inner : Inner σ) (target : Option (Expr σ))
    (span : Span) : Parse (Expr σ) := do
  let (receiver, info) ← Parse.bind (scope.indexed target span)
  let opening ← Parse.current
  let (args, closing) ← arguments limits inner .rightBracket
  Parse.bind (Scope.index receiver info args span opening.span closing)

def call (scope : Scope σ) (limits : Limits) (inner : Inner σ) (name : DottedName)
    (span : Span) (target : Option (Expr σ)) : Parse (Expr σ) := do
  let callee ← Parse.bind (scope.callee name target)
  let (args, closing) ← arguments limits inner .rightParen
  Parse.bind (Scope.call callee args span closing)

-- A name, current on entry; the token behind it tells a call and an indexer from a member.
def named (scope : Scope σ) (limits : Limits) (inner : Inner σ) (spelling : String) (span : Span)
    (target : Option (Expr σ)) : Parse (Expr σ) := do
  Parse.bump
  let name := DottedName.ofText spelling span.start
  let token ← Parse.current
  match token.kind with
  | .leftParen => call scope limits inner name span target
  | .leftBracket => do
    let e ← Parse.bind (scope.members name target)
    indexer scope limits inner (some e) span
  | _ => Parse.bind (scope.members name target)

def suffixes (scope : Scope σ) (limits : Limits) (inner : Inner σ) :
    Nat → Expr σ → Parse (Expr σ)
  | 0, e => pure e
  | steps + 1, e => do
    if (← Parse.current).kind = .dot then
      Parse.bump
      let token ← Parse.current
      match token.kind with
      | .name name => do
        suffixes scope limits inner steps (← named scope limits inner name token.span (some e))
      | kind => throw ⟨.expectedName kind, token.span⟩
    else pure e

def withSuffixes (scope : Scope σ) (limits : Limits) (inner : Inner σ) (e : Expr σ) :
    Parse (Expr σ) := do
  suffixes scope limits inner (← Parse.tokensLeft) e

-- A unary operator takes a primary: suffixes behind it apply to the whole.
def unary (limits : Limits) (inner : Inner σ) (op : UnaryOp) (span : Span) : Parse (Expr σ) := do
  let parse ← nested limits inner span
  Parse.bump
  let operand ← parse .primary
  Parse.bind (bindUnary op span operand)

-- A group in parentheses spans them; suffixes behind it belong to it.
def group (scope : Scope σ) (limits : Limits) (inner : Inner σ) (span : Span) :
    Parse (Expr σ) := do
  let parse ← nested limits inner span
  Parse.bump
  let e ← parse .expression
  let closing ← Parse.expect .rightParen
  withSuffixes scope limits inner (e.withSpan (span.union closing))

def primary (scope : Scope σ) (limits : Limits) (inner : Inner σ) : Parse (Expr σ) := do
  let token ← Parse.current
  match token.kind.literal? with
  | some value => do
    Parse.bump
    pure (.literal value token.span)
  | none =>
    match token.kind with
    | .leftParen => group scope limits inner token.span
    | .minus => unary limits inner .negate token.span
    | .not => unary limits inner .not token.span
    | .leftBracket =>
      if scope.context.isNone then throw ⟨.indexerWithoutContext, token.span⟩
      else indexer scope limits inner none token.span
    | .name name => named scope limits inner name token.span none
    | kind => throw ⟨.expectedOperand kind, token.span⟩

def operand (scope : Scope σ) (limits : Limits) (inner : Inner σ) : Parse (Expr σ) := do
  withSuffixes scope limits inner (← primary scope limits inner)

-- Operators of the first `n` layers with what stands to their right, grouped to the left. Outside groups the
-- right side holds operators of tighter layers alone.
def operators (n : Nat) (tighter : (m : Nat) → m < n → Parse (Expr σ)) : Nat → Expr σ → Parse (Expr σ)
  | 0, left => pure left
  | steps + 1, left => do
    let token ← Parse.current
    match token.kind.binaryOp? with
    | some op =>
      if fits : op.layer ≤ n then do
        Parse.bump
        let right ← tighter (op.layer - 1) (op.tighter_lt fits)
        operators n tighter steps (← Parse.bind (bindBinary op token.span left right))
      else pure left
    | none => pure left

-- Expressions whose operators outside groups belong to the first `n` layers.
def expression (operand : Parse (Expr σ)) (n : Nat) : Parse (Expr σ) := do
  let left ← operand
  operators n (fun m _ => expression operand m) (← Parse.tokensLeft) left
termination_by n

def goal (scope : Scope σ) (limits : Limits) (inner : Inner σ) : Goal → Parse (Expr σ)
  | .primary => primary scope limits inner
  | .expression => expression (operand scope limits inner) BinaryOp.layers

def within (scope : Scope σ) (limits : Limits) : Nat → Goal → Parse (Expr σ)
  | 0, g => goal scope limits none g
  | room + 1, g => goal scope limits (some (within scope limits room)) g

-- A whole formula: an expression and nothing behind it, in a tree that is not too high.
def formula (scope : Scope σ) (limits : Limits) (text : String) : Parse (Expr σ) := do
  Parse.bump
  let e ← within scope limits limits.maxDepth .expression
  let token ← Parse.current
  if token.kind ≠ .ending then throw ⟨.expectedEnd token.kind, token.span⟩
  match e.firstDeeperThan limits.maxHeight with
  | some span => throw ⟨.treeTooHigh limits.maxHeight, span⟩
  | none => do
    Parse.bind (.note (.parsed text e.print e.ty))
    pure e

def run (scope : Scope σ) (limits : Limits) (text : String) :
    Except Fault (Expr σ) × List Note :=
  let length := Text.byteLength text.toList
  if limits.maxLength < length then
    (.error ⟨.tooLong length limits.maxLength, ⟨limits.maxLength, length⟩⟩, [])
  else
    match formula scope limits text ⟨.initial, Lexer.readings text, []⟩ with
    | .ok e s => (.ok e, s.notes.reverse)
    | .error fault s => (.error fault, s.notes.reverse)

def parse (scope : Scope σ) (limits : Limits) (text : String) : Except Fault (Expr σ) :=
  (run scope limits text).1

end Parser
end TypedFormula
