import MachineCode.Encoding.Stream
import MachineCode.Frame.Lowering
import MachineCode.Relaxation
import MachineCode.Statistics

/-!
# Compilation

Compiling a function lowers its frame, relaxes its branches and encodes it. A session counts
the functions that it has compiled; a function that fails is not counted.
-/

namespace MachineCode

/-- The machine code of a function. -/
structure CompiledFunction extends CodeStream where
  name : String
  relaxation : Relaxation.Stats
  deriving DecidableEq, Repr

namespace CompiledFunction

def relocations (compiled : CompiledFunction) : Except CodeError (List Relocation) :=
  relocationsOf compiled.fixups

/-- The blocks with the offsets at which they start. -/
def blockStarts (compiled : CompiledFunction) : List (BlockId × Nat) :=
  compiled.blockOffsets.mapIdx fun id offset => (id, offset)

end CompiledFunction

/-- Lower, relax and encode a function. -/
def compileFunction (options : Options) : Pass CompiledFunction := do
  lowerFrame options
  let relaxation ← relaxBranches
  let function ← get
  let stream ← Pass.ofExcept (encodeBlocks options.byteOrder 0 function.blocks)
  pure { stream with name := function.name, relaxation }

/-- A function that a session has tried to compile: what came of it, the function as the passes
left it, and the counters of the session. -/
structure Compilation where
  outcome : Except CodeError CompiledFunction
  function : Function
  stats : Statistics

/-- Compile a function in a session. -/
def Statistics.compile (stats : Statistics) (options : Options) (function : Function) :
    Compilation :=
  match (compileFunction options).run function with
  | .ok compiled lowered =>
      { outcome := .ok compiled
        function := lowered
        stats :=
          (stats.recordFunction compiled.instructions compiled.bytes.length
            compiled.fixups.length).recordRelaxation
            compiled.relaxation.expanded compiled.relaxation.iterations }
  | .error reason lowered => { outcome := .error reason, function := lowered, stats }

/-- Compile functions one after the other in a session. One that fails does not stop the next. -/
def Statistics.compileEach (stats : Statistics) (options : Options) :
    List Function → List Compilation
  | [] => []
  | function :: rest =>
      let compilation := stats.compile options function
      compilation :: compilation.stats.compileEach options rest

end MachineCode
