import SimpleQuery.CommandLine.Run

/-!
# The program

Runs the command line over a backend whose answers stand on the standard input.

Model of the entry point that calls `main`.
-/

set_option autoImplicit false

open SimpleQuery

/-- The variables that settings may come from. -/
def settingVariables : List String := Setting.all.filterMap Environment.variableName?

/-- Reads the environment and the answers, runs, and writes what there is to write. -/
def main (arguments : List String) : IO UInt32 := do
  let found ← settingVariables.mapM fun name => return (name, ← IO.getEnv name)
  let answers ← (← IO.getStdin).readBinToEnd
  let env : Environment := fun name => (found.find? fun p => p.1 == name).bind Prod.snd
  let ending := CommandLine.run {} arguments env { incoming := [.bytes answers.data.toList] }
  IO.print ending.stdout
  IO.eprint (CommandLine.told ending)
  return ending.exitCode.toUInt32
