import Headend.Cli

/-!
# The program
-/

open Headend

def main (args : List String) : IO UInt32 := do
  let values ← Cli.variableNames.mapM fun name => return (name, ← IO.getEnv name)
  let env := values.filterMap fun (name, value) => value.map fun v => (name, v)
  let report := Cli.run args env .none []
  for line in report.lines do
    IO.println line
  if let some failure := report.failure then
    IO.eprintln ("Error: " ++ failure)
  return report.exit.toUInt32
