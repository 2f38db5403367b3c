import TypedFormula.CommandLine.Run

open TypedFormula

def usage : String :=
  "Evaluate formulas against the built-in types.\n\n" ++
  "Usage: formula-expr [--json] <eval|tokens|print> [FORMULA]\n\n" ++
  "  eval    Evaluate a formula (options: --max-depth N, --max-len N)\n" ++
  "  tokens  Print the tokens of a formula\n" ++
  "  print   Print the bound tree of a formula, fully parenthesized\n\n" ++
  "Without FORMULA the formula is read from standard input.\n"

-- All bytes that a stream still has.
partial def readAll (stream : IO.FS.Stream) (taken : ByteArray) : IO ByteArray := do
  let chunk ← stream.read 65536
  if chunk.isEmpty then return taken
  readAll stream (taken ++ chunk)

def main (args : List String) : IO UInt32 := do
  match CommandLine.request args with
  | .usageError =>
    IO.eprint usage
    return 2
  | .help =>
    IO.print usage
    return 0
  | .invoke _ =>
    let input ← if CommandLine.readsInput args then readAll (← IO.getStdin) .empty else pure .empty
    let output := CommandLine.run args input
    IO.print output.stdout
    IO.eprint output.stderr
    return UInt32.ofNat output.exit
