import TypedFormula.Value
import TypedFormula.Span

namespace TypedFormula

inductive TokenKind where
  -- Nothing has been read yet.
  | beginning
  | ending
  | name (spelling : String)
  | int (n : Int32)
  | float (x : Float32)
  | double (x : Float)
  | decimal (d : Decimal)
  | bool (b : Bool)
  | text (s : String)
  | plus
  | minus
  | star
  | slash
  | leftParen
  | rightParen
  | leftBracket
  | rightBracket
  | leftBrace
  | rightBrace
  | semicolon
  | colon
  | comma
  | dot
  | equal
  | notEqual
  | less
  | lessEqual
  | greater
  | greaterEqual
  | shiftLeft
  | shiftRight
  | bitOr
  | bitAnd
  | bitXor
  | not
  | logicalOr
  | logicalAnd
deriving DecidableEq

namespace TokenKind

def phrase : TokenKind → String
  | .beginning => "beginning of formula"
  | .ending => "end of formula"
  | .name spelling => s!"name `{spelling}`"
  | .int _ | .float _ | .double _ | .decimal _ => "number"
  | .bool _ => "boolean"
  | .text _ => "string"
  | .plus => "`+`"
  | .minus => "`-`"
  | .star => "`*`"
  | .slash => "`/`"
  | .leftParen => "`(`"
  | .rightParen => "`)`"
  | .leftBracket => "`[`"
  | .rightBracket => "`]`"
  | .leftBrace => "`\x7b`"
  | .rightBrace => "`\x7d`"
  | .semicolon => "`;`"
  | .colon => "`:`"
  | .comma => "`,`"
  | .dot => "`.`"
  | .equal => "`=`"
  | .notEqual => "`!=`"
  | .less => "`<`"
  | .lessEqual => "`<=`"
  | .greater => "`>`"
  | .greaterEqual => "`>=`"
  | .shiftLeft => "`<<`"
  | .shiftRight => "`>>`"
  | .bitOr => "`|`"
  | .bitAnd => "`&`"
  | .bitXor => "`^`"
  | .not => "`!`"
  | .logicalOr => "`||`"
  | .logicalAnd => "`&&`"

-- The kind without its payload.
def label : TokenKind → String
  | .beginning => "Begin"
  | .ending => "End"
  | .name _ => "Name"
  | .int _ => "Int"
  | .float _ => "Float"
  | .double _ => "Double"
  | .decimal _ => "Decimal"
  | .bool _ => "Bool"
  | .text _ => "Text"
  | .plus => "Plus"
  | .minus => "Minus"
  | .star => "Star"
  | .slash => "Slash"
  | .leftParen => "LParen"
  | .rightParen => "RParen"
  | .leftBracket => "LBracket"
  | .rightBracket => "RBracket"
  | .leftBrace => "LBrace"
  | .rightBrace => "RBrace"
  | .semicolon => "Semicolon"
  | .colon => "Colon"
  | .comma => "Comma"
  | .dot => "Dot"
  | .equal => "Eq"
  | .notEqual => "Ne"
  | .less => "Lt"
  | .lessEqual => "Le"
  | .greater => "Gt"
  | .greaterEqual => "Ge"
  | .shiftLeft => "Shl"
  | .shiftRight => "Shr"
  | .bitOr => "BitOr"
  | .bitAnd => "BitAnd"
  | .bitXor => "BitXor"
  | .not => "Not"
  | .logicalOr => "OrOr"
  | .logicalAnd => "AndAnd"

def literal? : TokenKind → Option Value
  | .int n => some (.int n)
  | .float x => some (.float x)
  | .double x => some (.double x)
  | .decimal d => some (.decimal d)
  | .bool b => some (.bool b)
  | .text s => some (.text s)
  | _ => none

def payload? : TokenKind → Option String
  | .name spelling => some spelling
  | kind => kind.literal?.map Value.toText

def described (kind : TokenKind) : String :=
  match kind with
  | .name spelling => s!"Name({Text.escaped spelling})"
  | _ =>
    match kind.literal? with
    | some value => value.described
    | none => kind.label

end TokenKind

structure Token where
  kind : TokenKind
  span : Span
deriving DecidableEq

def Token.initial : Token := ⟨.beginning, ⟨0, 0⟩⟩

end TypedFormula
