import Tenure.Simulation.Rounds

/-!
# The simulation as a program

The program reads what the simulation is told from its environment, prints the records line by
line, and ends with a number other than zero if the simulation ended early.

## Main definitions

* `main` — the program
-/

open Tenure

/-- Reads the environment, carries the simulation out and prints what came of it. -/
def main : IO UInt32 := do
  let settings : Simulation.Settings :=
    { client := ← IO.getEnv "LEADER_PROXY_CLIENT"
      config := ← IO.getEnv "LEADER_PROXY_CONFIG"
      rounds := ← IO.getEnv "LEADER_PROXY_ROUNDS" }
  let outcome := Simulation.run 1 settings
  for line in outcome.lines do
    IO.println line
  match outcome.fault.bind Simulation.Fault.printed? with
  | some text => IO.eprintln text
  | none => pure ()
  return outcome.exitCode
