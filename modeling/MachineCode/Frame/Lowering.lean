import MachineCode.Frame.CallSequence
import MachineCode.Frame.CalleeSaved
import MachineCode.Frame.Prologue
import MachineCode.Frame.Slot

/-!
# Frame lowering

Lowering gives a function its concrete frame: preserved registers are saved in the entry and
restored in every returning block, the prologue and the epilogues are inserted, and then every
block is walked once to expand call sequence pseudos and to resolve frame slots.
-/

namespace MachineCode

/-- Restore registers in front of the terminators that end a block. -/
def restoreBeforeTerminators (id : BlockId) (registers : List Register) : Pass Unit := do
  let index ← Pass.ofExcept (← Pass.block id).firstTerminator
  discard (restoreRegisters id index registers)

/-- The operand positions at which an instruction has a frame slot. -/
def Instr.slotPositions (instr : Instr) : List Nat :=
  (List.range instr.operands.length).filter fun position =>
    (instr.operands[position]?.bind Operand.frameIndex?).isSome

/-- Lower the instruction at a position of a block. The state is the number of bytes by which the
surrounding call sequence has moved the stack pointer. -/
def lowerAt (options : Options) (id : BlockId) (index : Nat) (instr : Instr)
    (stackAdjustment : Int64) : Pass (Nat × Int64) := do
  if instr.isCallPseudo then
    let adjustment ← Pass.ofExcept (callAdjustment options instr)
    let next ← eliminateCallPseudo options id index
    pure (next, stackAdjustment + adjustment)
  else
    instr.slotPositions.forM fun position =>
      eliminateSlot options id index position stackAdjustment
    pure (index + 1, stackAdjustment)

/-- The number of steps in which instructions are lowered: one for each instruction, one for each
that a slot may add, and one to see the end. -/
def loweringSteps (instrs : List Instr) : Nat :=
  totalSize (instrs.map fun instr => 1 + instr.slotPositions.length) + 1

/-- Lower the body of a block. -/
def lowerBody (options : Options) (id : BlockId) : Pass Unit := do
  let steps := loweringSteps (← Pass.block id).instrs
  discard (Pass.walk id (lowerAt options id) steps 0 0)

/-- Lower the frame of a function. -/
def lowerFrame (options : Options) : Pass Unit := do
  let _ ← decideFramePointer options
  addFramePointerSlot options
  let function ← get
  match function.entryBlock? with
  | none => pure ()
  | some entry =>
      let returning := function.returningBlocks
      let registers := function.calleeSaved
      discard (saveRegisters entry 0 registers)
      returning.forM fun id => restoreBeforeTerminators id registers
      emitPrologue options entry
      returning.forM (emitEpilogue options)
      Pass.visitBlocks (fun id _ => lowerBody options id) ()

end MachineCode
