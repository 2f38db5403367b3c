import TypedFormula.Operator
import TypedFormula.Token

namespace TypedFormula

inductive FaultKind where
  | invalidCharacter
  | malformedNumber
  | numberOverflow
  | unterminatedText
  | invalidName
  | invalidOperator
  | grammar
  | noContext
  | notFound
  | noMatchingMethod
  | noMatchingIndexer
  | operatorMismatch
  | nestingLimit
  | formulaTooLong
  | runtime
deriving DecidableEq, Repr

namespace FaultKind

def all : List FaultKind :=
  [.invalidCharacter, .malformedNumber, .numberOverflow, .unterminatedText, .invalidName,
    .invalidOperator, .grammar, .noContext, .notFound, .noMatchingMethod, .noMatchingIndexer,
    .operatorMismatch, .nestingLimit, .formulaTooLong, .runtime]

def label : FaultKind → String
  | .invalidCharacter => "InvalidCharacter"
  | .malformedNumber => "MalformedNumber"
  | .numberOverflow => "NumberOverflow"
  | .unterminatedText => "UnterminatedText"
  | .invalidName => "InvalidName"
  | .invalidOperator => "InvalidOperator"
  | .grammar => "Syntax"
  | .noContext => "NoContext"
  | .notFound => "NotFound"
  | .noMatchingMethod => "NoMatchingMethod"
  | .noMatchingIndexer => "NoMatchingIndexer"
  | .operatorMismatch => "OperatorMismatch"
  | .nestingLimit => "NestingLimit"
  | .formulaTooLong => "FormulaTooLong"
  | .runtime => "Runtime"

def ofLabel? (label : String) : Option FaultKind := all.find? (·.label == label)

end FaultKind

inductive Cause where
  -- Characters that form no token.
  | invalidCharacter (c : Char)
  | malformedNumber (text : String)
  | numberOverflow (text : String)
  | unterminatedText
  | nameEndsInDot (name : String)
  | invalidOperator (text : String)
  -- A token where another was due.
  | expectedEnd (found : TokenKind)
  | expectedOperand (found : TokenKind)
  | expectedName (found : TokenKind)
  | expectedToken (wanted found : TokenKind)
  | expectedSeparator (close found : TokenKind)
  -- Names, calls and indexers without a meaning.
  | indexerWithoutContext
  | contextMissing
  | nameWithoutContext (name : String)
  | contextNotRegistered (typeName : String)
  | typeNotRegistered (typeName : String)
  | neitherMemberNorType (name typeName : String)
  | unknownType (name : String)
  | noStaticMember (typeName name : String)
  | noMember (typeName name : String)
  | noOverload (typeName method : String) (types : List Ty)
  | noMethod (typeName : String) (isStatic : Bool) (method : String) (types : List Ty)
  | noIndexer (typeName : String) (types : List Ty)
  | unaryMismatch (op : UnaryOp) (operand : Ty)
  | binaryMismatch (op : BinaryOp) (left right : Ty)
  -- Limits.
  | tooLong (length limit : Nat)
  | nestedTooDeep (limit : Nat)
  | treeTooHigh (limit : Nat)
  -- Failures of an evaluation.
  | noContextObject
  | foreignContext (bound given : String)
  | divisionByZero
  | integerOverflow
  | decimalOverflow (op : BinaryOp)
  | unaryUndefined (op : UnaryOp) (operand : Ty)
  | binaryUndefined (op : BinaryOp) (left right : Ty)
  | hostFailure (accessor message : String)
deriving DecidableEq

namespace Cause

@[simp] def kind : Cause → FaultKind
  | .invalidCharacter _ => .invalidCharacter
  | .malformedNumber _ => .malformedNumber
  | .numberOverflow _ => .numberOverflow
  | .unterminatedText => .unterminatedText
  | .nameEndsInDot _ => .invalidName
  | .invalidOperator _ => .invalidOperator
  | .expectedEnd _ | .expectedOperand _ | .expectedName _ | .expectedToken _ _
  | .expectedSeparator _ _ => .grammar
  | .indexerWithoutContext | .contextMissing | .nameWithoutContext _ => .noContext
  | .contextNotRegistered _ | .typeNotRegistered _ | .neitherMemberNorType _ _ | .unknownType _
  | .noStaticMember _ _ | .noMember _ _ => .notFound
  | .noOverload _ _ _ | .noMethod _ _ _ _ => .noMatchingMethod
  | .noIndexer _ _ => .noMatchingIndexer
  | .unaryMismatch _ _ | .binaryMismatch _ _ _ => .operatorMismatch
  | .tooLong _ _ => .formulaTooLong
  | .nestedTooDeep _ | .treeTooHigh _ => .nestingLimit
  | .noContextObject | .foreignContext _ _ | .divisionByZero | .integerOverflow
  | .decimalOverflow _ | .unaryUndefined _ _ | .binaryUndefined _ _ _ | .hostFailure _ _ => .runtime

def unaryText (op : UnaryOp) (operand : Ty) : String :=
  s!"operator `{op.symbol}` cannot be applied to {operand.name}"

def binaryText (op : BinaryOp) (left right : Ty) : String :=
  s!"operator `{op.symbol}` is not defined for {left.name} and {right.name}"

def message : Cause → String
  | .invalidCharacter c => s!"invalid character {Text.escapedSingle c}"
  | .malformedNumber text => s!"malformed number `{text}`"
  | .numberOverflow text => s!"number `{text}` is out of range"
  | .unterminatedText => "unterminated string literal"
  | .nameEndsInDot name => s!"name `{name}` must not end with `.`"
  | .invalidOperator text =>
    s!"invalid operator `{text}`; expected one of =, <, >, <=, >=, !=, <<, >>"
  | .expectedEnd found => s!"expected `||` or end of formula, found {found.phrase}"
  | .expectedOperand found =>
    s!"expected a literal, name, `(`, `-` or `!`, found {found.phrase}"
  | .expectedName found => s!"expected member or method name, found {found.phrase}"
  | .expectedToken wanted found => s!"expected {wanted.phrase}, found {found.phrase}"
  | .expectedSeparator close found => s!"expected `,` or {close.phrase}, found {found.phrase}"
  | .indexerWithoutContext => "indexer access needs a context object"
  | .contextMissing => "no context object is bound"
  | .nameWithoutContext name => s!"no context object is bound to resolve `{name}`"
  | .contextNotRegistered typeName => s!"context type `{typeName}` is not registered"
  | .typeNotRegistered typeName => s!"type `{typeName}` is not registered"
  | .neitherMemberNorType name typeName =>
    s!"`{name}` is neither a member of `{typeName}` nor a type"
  | .unknownType name => s!"unknown type `{name}`"
  | .noStaticMember typeName name =>
    s!"type `{typeName}` has no static field or property `{name}`"
  | .noMember typeName name => s!"type `{typeName}` has no field or property `{name}`"
  | .noOverload typeName method types =>
    s!"no overload of `{typeName}.{method}` takes ({Ty.listed types})"
  | .noMethod typeName isStatic method types =>
    let kind := if isStatic then "static " else ""
    s!"type `{typeName}` has no {kind}method `{method}({Ty.listed types})`"
  | .noIndexer typeName types => s!"type `{typeName}` has no indexer taking [{Ty.listed types}]"
  | .unaryMismatch op operand => unaryText op operand
  | .binaryMismatch op left right => binaryText op left right
  | .tooLong length limit => s!"formula is {length} bytes long; the limit is {limit}"
  | .nestedTooDeep limit => s!"formula nests deeper than {limit} levels"
  | .treeTooHigh limit => s!"expression tree is deeper than {limit} levels"
  | .noContextObject => "no context object to evaluate against"
  | .foreignContext bound given =>
    s!"formula was bound to `{bound}` but evaluated with `{given}`"
  | .divisionByZero => "division by zero"
  | .integerOverflow => "integer overflow in `/`"
  | .decimalOverflow op => s!"decimal overflow in `{op.symbol}`"
  | .unaryUndefined op operand => unaryText op operand
  | .binaryUndefined op left right => binaryText op left right
  | .hostFailure accessor message => s!"{accessor} failed: {message}"

end Cause

structure Fault where
  cause : Cause
  span : Span
deriving DecidableEq

end TypedFormula
