import TypedFormula.Lexeme
import TypedFormula.Text.Bytes

namespace TypedFormula

structure Lexer where
  source : String
  rest : List Char
  -- The bytes read so far, and where the latest lexeme begins.
  position : Nat
  start : Nat
  current : Token

namespace Lexer

def ofSource (source : String) : Lexer := ⟨source, source.toList, 0, 0, .initial⟩

def empty : Lexer := ofSource ""

def length (lx : Lexer) : Nat := lx.position - lx.start

def isEmpty (lx : Lexer) : Bool := lx.length == 0

-- The next token, or why there is none. At the end of the source every step gives the end again.
def next (lx : Lexer) : Except Fault Token × Lexer :=
  let start := lx.position + Text.byteLength (lx.rest.takeWhile Text.isBlank)
  match lx.rest.dropWhile Text.isBlank with
  | [] =>
    let token : Token := ⟨.ending, ⟨start, start⟩⟩
    (.ok token, { lx with rest := [], position := start, start := start, current := token })
  | c :: cs =>
    let lexeme := Lexeme.scan c cs
    let span : Span := ⟨start, start + Text.byteLength lexeme.chars⟩
    let moved := { lx with rest := lexeme.rest, position := span.stop, start := start }
    match lexeme.outcome with
    | .ok kind => (.ok ⟨kind, span⟩, { moved with current := ⟨kind, span⟩ })
    | .error cause => (.error ⟨cause, span⟩, moved)

-- The tokens from here on, in at most `steps` steps: up to and including the end, or the first fault.
def collect : Nat → Lexer → List (Except Fault Token)
  | 0, _ => []
  | steps + 1, lx =>
    match lx.next with
    | (.error fault, _) => [.error fault]
    | (.ok token, moved) =>
      if token.kind = .ending then [.ok token] else .ok token :: collect steps moved

-- Every step but the last takes a character, so there are at most one more steps than characters.
def readings (source : String) : List (Except Fault Token) :=
  collect (source.toList.length + 1) (ofSource source)

def tokenize (source : String) : Except Fault (List Token) := (readings source).mapM id

end Lexer
end TypedFormula
