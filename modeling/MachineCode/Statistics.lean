/-!
# Session statistics

The counters of a session add up over the functions that it compiles.
-/

namespace MachineCode

/-- What a session has produced. -/
structure Statistics where
  functionsCompiled : Nat := 0
  instructionsEncoded : Nat := 0
  bytesEmitted : Nat := 0
  fixupsRecorded : Nat := 0
  branchesExpanded : Nat := 0
  relaxationIterations : Nat := 0
  deriving DecidableEq, Repr, Inhabited

namespace Statistics

def recordFunction (stats : Statistics) (instructions bytes fixups : Nat) : Statistics :=
  { stats with
    functionsCompiled := stats.functionsCompiled + 1
    instructionsEncoded := stats.instructionsEncoded + instructions
    bytesEmitted := stats.bytesEmitted + bytes
    fixupsRecorded := stats.fixupsRecorded + fixups }

/-- Count the work of branch relaxation. -/
def recordRelaxation (stats : Statistics) (expanded iterations : Nat) : Statistics :=
  { stats with
    branchesExpanded := stats.branchesExpanded + expanded
    relaxationIterations := stats.relaxationIterations + iterations }

def report (stats : Statistics) : String :=
  "Code generation statistics:\n" ++
  "  Functions compiled:    " ++ stats.functionsCompiled.repr ++ "\n" ++
  "  Instructions encoded:  " ++ stats.instructionsEncoded.repr ++ "\n" ++
  "  Bytes emitted:         " ++ stats.bytesEmitted.repr ++ "\n" ++
  "  Fixups recorded:       " ++ stats.fixupsRecorded.repr ++ "\n" ++
  "  Branches expanded:     " ++ stats.branchesExpanded.repr ++ "\n" ++
  "  Relaxation iterations: " ++ stats.relaxationIterations.repr

end Statistics

end MachineCode
