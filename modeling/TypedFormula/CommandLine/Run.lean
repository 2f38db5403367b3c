import TypedFormula.Builtins
import TypedFormula.CommandLine.Arguments
import TypedFormula.CommandLine.Json
import TypedFormula.Engine

namespace TypedFormula.CommandLine

structure Output where
  exit : Nat
  stdout : String
  stderr : String
deriving DecidableEq

inductive Report where
  | value (ty : Ty) (value : Value)
  | tokens (tokens : List Token)
  | printed (ty : Ty) (text : String)
  | failed (d : Diagnostic)

-- Commands have no host, so its state is the unit value.
def evalReport (limits : Limits) (text : String) : Report :=
  match (Engine.compile (Builtins.registry : Registry Unit) none limits text).1 with
  | .error fault => .failed fault.diagnostic
  | .ok compiled =>
    match compiled.evaluate () with
    | .ok value _ => .value compiled.resultType value
    | .error fault _ => .failed fault.diagnostic

def tokensReport (text : String) : Report :=
  match Lexer.tokenize text with
  | .error fault => .failed fault.diagnostic
  | .ok tokens => .tokens tokens

def printReport (text : String) : Report :=
  match (Engine.parse (Builtins.registry : Registry Unit) none {} text).1 with
  | .error fault => .failed fault.diagnostic
  | .ok e => .printed e.ty e.print

def report (action : Action) (text : String) : Report :=
  match action with
  | .eval limits => evalReport limits text
  | .tokens => tokensReport text
  | .print => printReport text

namespace Report

def ok : Report → Bool
  | .failed _ => false
  | _ => true

def tokenJson (t : Token) : Json :=
  .object [("kind", .text t.kind.described), ("start", .ofNat t.span.start),
    ("end", .ofNat t.span.stop)]

def json : Report → Json
  | .value ty v =>
    .object [("ok", .bool true), ("type", .text ty.name), ("value", .ofValue v),
      ("output", .text v.toText)]
  | .tokens ts => .object [("ok", .bool true), ("tokens", .array (ts.map tokenJson))]
  | .printed ty text =>
    .object [("ok", .bool true), ("type", .text ty.name), ("output", .text text)]
  | .failed d => .object [("ok", .bool false), ("error", .ofDiagnostic d)]

def tokenLine (t : Token) : String := s!"{t.span.text} {t.kind.described}\n"

def plain (formula : String) : Report → String × String
  | .value _ v => (v.toText ++ "\n", "")
  | .tokens ts => (String.join (ts.map tokenLine), "")
  | .printed _ text => (text ++ "\n", "")
  | .failed d => ("", d.rendered formula ++ "\n")

def output (json : Bool) (formula : String) (r : Report) : Output :=
  let (stdout, stderr) := if json then (r.json.render ++ "\n", "") else r.plain formula
  ⟨if r.ok then 0 else 1, stdout, stderr⟩

end Report

def withoutLineEnds (text : String) : String :=
  String.ofList (text.toList.reverse.dropWhile fun c => c == '\r' || c == '\n').reverse

-- The formula of a request: from the arguments, or else the whole input.
def formulaOf (formula : Option String) (input : ByteArray) : Option String :=
  match formula with
  | some text => some text
  | none => (String.fromUTF8? input).map withoutLineEnds

def unreadable : Output :=
  ⟨1, "", "error: failed to read formula: stream did not contain valid UTF-8\n"⟩

-- Usage errors and help are told apart by the exit code; their texts are left to the outer layer.
def run (args : List String) (input : ByteArray) : Output :=
  match request args with
  | .usageError => ⟨2, "", ""⟩
  | .help => ⟨0, "", ""⟩
  | .invoke invocation =>
    match formulaOf invocation.formula input with
    | none => unreadable
    | some text => (report invocation.action text).output invocation.json text

def readsInput (args : List String) : Bool :=
  match request args with
  | .invoke invocation => invocation.formula.isNone
  | _ => false

end TypedFormula.CommandLine
