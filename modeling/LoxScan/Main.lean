import LoxScan.Demo

/-! # Command line

Runs the demonstration: prints the listing, writes reports to the error stream, and ends with
status zero if there were none.
-/

def main : IO UInt32 := do
  let outcome := LoxScan.Demo.run
  IO.print outcome.printed
  IO.eprint outcome.reported
  return if outcome.ok then 0 else 1
