import StacksWallet.CommandLine.Report

/-!
# The program

The command line with the process's environment. The program has no network of its own: every request ends as
if nobody were there.
-/

namespace StacksWallet.CommandLine

/-- The variables that the configuration and the commands look at. -/
def watchedVariables : List String :=
  ["STACKS_NETWORK", "STACKS_API_URL", "STACKS_TIMEOUT", "STACKS_MAX_RETRIES", "STACKS_BACKOFF", "STACKS_USER_AGENT",
    "STACKS_PRIVATE_KEY"]

/-- The variables that are set, with their values. -/
def readEnvironment : IO Environment :=
  watchedVariables.filterMapM fun name => do
    let value ← IO.getEnv name
    return value.map fun v => (Text.ofString name, Text.ofString v)

end StacksWallet.CommandLine

open StacksWallet in
/-- Run the command line, print what it prints, and end with its status. -/
def main (arguments : List String) : IO UInt32 := do
  let environment ← CommandLine.readEnvironment
  let program := CommandLine.run SignatureScheme.secp256k1 environment (arguments.map Text.ofString)
  let report := (program.run { outcomes := [] }).1
  IO.print report.output.toString
  if let some complaint := report.complaint? then IO.eprint complaint.toString
  return UInt32.ofNat report.status
