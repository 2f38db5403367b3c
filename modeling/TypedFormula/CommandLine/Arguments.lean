import TypedFormula.Digits
import TypedFormula.Parser

namespace TypedFormula.CommandLine

inductive Action where
  | eval (limits : Limits)
  | tokens
  | print

structure Invocation where
  json : Bool
  action : Action
  -- Absent when the formula is to be read from the input.
  formula : Option String

inductive Request where
  | usageError
  | help
  | invoke (invocation : Invocation)

-- The commands by name, and whether a command takes limits.
inductive Verb where
  | eval
  | tokens
  | print
deriving DecidableEq

def Verb.ofName? (name : String) : Option Verb :=
  if name = "eval" then some .eval
  else if name = "tokens" then some .tokens
  else if name = "print" then some .print
  else none

def readNumber (greatest : Nat) (text : String) : Option Nat :=
  let digits := match text.toList with
    | '+' :: cs => cs
    | cs => cs
  if digits = [] ∨ ¬ digits.all Char.isDigit then none
  else
    let n := digitsValue digits
    if n ≤ greatest then some n else none

def readDepth (text : String) : Option Nat :=
  (readNumber 256 text).bind fun n => if n = 0 then none else some n

def readLength (text : String) : Option Nat := readNumber 18446744073709551615 text

def looksLikeOption (arg : String) : Bool :=
  match arg.toList with
  | '-' :: _ :: _ => true
  | _ => false

def asksForHelp (arg : String) : Bool :=
  arg == "--help" || (match arg.toList with
    | '-' :: 'h' :: _ => true
    | _ => false)

def inlineValue? (option arg : String) : Option String :=
  let lead := (option ++ "=").toList
  if lead.isPrefixOf arg.toList then some (String.ofList (arg.toList.drop lead.length)) else none

structure Given where
  json : Bool := false
  depth : Option Nat := none
  length : Option Nat := none
  formula : Option String := none

def Given.setDepth (g : Given) (text : String) : Option Given :=
  if g.depth.isSome then none else (readDepth text).map fun n => { g with depth := some n }

def Given.setLength (g : Given) (text : String) : Option Given :=
  if g.length.isSome then none else (readLength text).map fun n => { g with length := some n }

def Given.setFormula (g : Given) (text : String) : Option Given :=
  if g.formula.isSome then none else some { g with formula := some text }

def Given.limits (g : Given) : Limits :=
  { maxDepth := g.depth.getD 64, maxLength := g.length.getD 8192 }

-- The request that the arguments behind a command make, or how far they led.
inductive Reading where
  | wrong
  | help
  | complete (given : Given)

-- Every argument left is a formula.
def readPlain : Given → List String → Reading
  | g, [] => .complete g
  | g, arg :: args =>
    match g.setFormula arg with
    | some next => readPlain next args
    | none => .wrong

def readInline (verb : Verb) (g : Given) (arg : String) : Option Given :=
  if verb ≠ .eval then none
  else match inlineValue? "--max-depth" arg, inlineValue? "--max-len" arg with
    | some value, _ => g.setDepth value
    | _, some value => g.setLength value
    | none, none => none

def readGiven (verb : Verb) : Given → List String → Reading
  | g, [] => .complete g
  | g, "--" :: args => readPlain g args
  | g, "--json" :: args => if g.json then .wrong else readGiven verb { g with json := true } args
  | g, [arg] =>
    if asksForHelp arg then .help
    else
      let next := if looksLikeOption arg then readInline verb g arg else g.setFormula arg
      match next with
      | some next => .complete next
      | none => .wrong
  | g, arg :: value :: args =>
    if asksForHelp arg then .help
    else if verb = .eval ∧ (arg = "--max-depth" ∨ arg = "--max-len") then
      if looksLikeOption value then .wrong
      else
        match if arg = "--max-depth" then g.setDepth value else g.setLength value with
        | some next => readGiven verb next args
        | none => .wrong
    else
      let next := if looksLikeOption arg then readInline verb g arg else g.setFormula arg
      match next with
      | some next => readGiven verb next (value :: args)
      | none => .wrong

def Verb.action (verb : Verb) (g : Given) : Action :=
  match verb with
  | .eval => .eval g.limits
  | .tokens => .tokens
  | .print => .print

-- The arguments of the command that explains the others: commands again, of which only it has any.
def helpRequest : List String → Request
  | [] => .help
  | [name] => if name = "help" ∨ (Verb.ofName? name).isSome then .help else .usageError
  | name :: rest => if name = "help" then helpRequest rest else .usageError

def commandRequest (json : Bool) : List String → Request
  | [] => .usageError
  | name :: rest =>
    if asksForHelp name then .help
    else if name = "help" then helpRequest rest
    else match Verb.ofName? name with
      | none => .usageError
      | some verb =>
        match readGiven verb {} rest with
        | .wrong => .usageError
        | .help => .help
        | .complete g => .invoke ⟨json || g.json, verb.action g, g.formula⟩

-- The request that all arguments make. The report form may be asked for in front of the command too.
def request (args : List String) : Request :=
  match args with
  | "--json" :: rest => commandRequest true rest
  | args => commandRequest false args

end TypedFormula.CommandLine
