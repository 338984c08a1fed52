import PropertyDelete.CommandLine.Report

/-!
The program: runs a scenario as its arguments and environment ask, prints what there is to
print, and ends with the exit code of the run.
-/
open PropertyDelete

def main (args : List String) : IO UInt32 := do
  let limit ← IO.getEnv Options.limitVariable
  let foreignHash ← IO.getEnv Options.foreignHashVariable
  let lookup := fun name =>
    if name = Options.limitVariable then limit
    else if name = Options.foreignHashVariable then foreignHash
    else none
  let report := CommandLine.report args lookup
  IO.print report.output
  match report.failure with
  | some line => IO.eprintln line
  | none => if report.code = 2 then IO.eprint CommandLine.helpText
  return UInt32.ofNat report.code
