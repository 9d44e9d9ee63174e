import FormulaCalculator.CommandLine.Run

set_option autoImplicit false

namespace FormulaCalculator.CommandLine

def standardInput (args : List String) : IO String := do
  match readOptions args with
  | .ok (_, []) => (← IO.getStdin).readToEnd
  | _ => return ""

end FormulaCalculator.CommandLine

open FormulaCalculator.CommandLine in
def main (args : List String) : IO UInt32 := do
  let debugVariable ← IO.getEnv "TEXCALC_DEBUG"
  let text ← standardInput args
  let finished := (run {} debugVariable args ⟨text, false⟩).finished
  IO.print finished.out
  IO.eprint finished.err
  match finished.status with
  | .ok status => return status.toUInt32
  | .error _ =>
    IO.eprintln "the expression is nested too deeply"
    return 1
