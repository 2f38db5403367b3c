import TypedFormula.Host.Store

namespace TypedFormula.Host

-- A body with constants of type `κ`: ids of objects in a description, values in a body that can run.
inductive Body (κ : Type) where
  | const (value : κ)
  | receiver
  | arg (i : Nat)
  | slot (name : String)
  -- Adds one to an int slot and yields the new value.
  | bump (name : String)
  | fail (message : String)
  | add (left right : Body κ)
  | mul (left right : Body κ)
  -- One of several values, by position.
  | pick (values : List κ) (position : Body κ)

def Body.resolve (w : World) : Body Constant → Option (Body Value)
  | .const constant => (w.resolve constant).map .const
  | .receiver => some .receiver
  | .arg i => some (.arg i)
  | .slot name => some (.slot name)
  | .bump name => some (.bump name)
  | .fail message => some (.fail message)
  | .add left right => do some (.add (← left.resolve w) (← right.resolve w))
  | .mul left right => do some (.mul (← left.resolve w) (← right.resolve w))
  | .pick values position => do
    some (.pick (← values.mapM w.resolve) (← position.resolve w))

-- What a body runs on: the receiver as it sees it, the object that holds the slots, and the arguments.
structure Frame where
  receiver : Value
  holder : Option Object
  args : List Value

namespace Body

def failWith {α : Type} (message : String) : Access Store α := throw ⟨message⟩

def slotsOf (frame : Frame) : Access Store (Nat × Slots) := do
  match frame.holder with
  | none => failWith "no slots"
  | some o =>
    match (← get).slots? o.identity with
    | some slots => pure (o.identity, slots)
    | none => failWith "no slots"

def sum : Value → Value → Access Store Value
  | .int a, .int b => pure (.int (a + b))
  | .double a, .double b => pure (.double (a + b))
  | .text a, .text b => pure (.text (a ++ b))
  | _, _ => failWith "bad operands"

def product : Value → Value → Access Store Value
  | .int a, .int b => pure (.int (a * b))
  | .double a, .double b => pure (.double (a * b))
  | _, _ => failWith "bad operands"

def pickAt (values : List Value) : Value → Access Store Value
  | .int n =>
    let outside := failWith s!"index {n.toInt} is out of range"
    if n.toInt < 0 then outside
    else match values[n.toInt.toNat]? with
      | some value => pure value
      | none => outside
  | _ => failWith "bad index"

def run (frame : Frame) : Body Value → Access Store Value
  | .const value => pure value
  | .receiver => pure frame.receiver
  | .arg i =>
    match frame.args[i]? with
    | some value => pure value
    | none => failWith s!"no argument {i}"
  | .slot name => do
    let (_, slots) ← slotsOf frame
    match slots.get? name with
    | some value => pure value
    | none => failWith s!"no slot {name}"
  | .bump name => do
    let (identity, slots) ← slotsOf frame
    match slots.get? name with
    | some (.int n) => do
      modify fun s => s.setSlots identity (slots.set name (.int (n + 1)))
      pure (.int (n + 1))
    | _ => failWith s!"no counter {name}"
  | .fail message => failWith message
  | .add left right => do
    let a ← run frame left
    let b ← run frame right
    sum a b
  | .mul left right => do
    let a ← run frame left
    let b ← run frame right
    product a b
  | .pick values position => do pickAt values (← run frame position)

end Body
end TypedFormula.Host
