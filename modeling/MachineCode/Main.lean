import MachineCode.CommandLine

/-!
# The program

Standard input is read to its end, and the output of the command line is written.
-/

/-- Run the command line. -/
def main (arguments : List String) : IO UInt32 := do
  let input ← (← IO.getStdin).readToEnd
  let output := MachineCode.CommandLine.run arguments input
  (← IO.getStdout).putStr output.standardOutput
  (← IO.getStderr).putStr output.standardError
  return UInt32.ofNat output.exitCode
