import MachineCode.Pass
import MachineCode.Target

/-!
# Preserved registers

Preserved registers are pushed in reverse list order and popped in list order, so that each pop
meets the value that its push has left.
-/

namespace MachineCode

def saveInstrs (registers : List Register) : List Instr :=
  registers.reverse.map Instr.push

def restoreInstrs (registers : List Register) : List Instr :=
  registers.map Instr.pop

/-- The bytes of the frame that saved registers occupy. -/
def savedSize (registers : List Register) : UInt64 :=
  UInt64.ofNat registers.length * Target.calleeSaveSlotSize

/-- Save registers before a position of a block, which receives their values from the caller.
The result says whether there was anything to save. -/
def saveRegisters (id : BlockId) (index : Nat) (registers : List Register) : Pass Bool := do
  if registers.isEmpty then
    pure false
  else
    modify fun function => { function with calleeSavedSize := savedSize registers }
    Pass.insertInstructions id index (saveInstrs registers)
    modify fun function => function.modifyBlock id fun block =>
      registers.foldl Block.addLiveIn block
    pure true

/-- Restore registers before a position of a block. The result says whether there was anything
to restore. -/
def restoreRegisters (id : BlockId) (index : Nat) (registers : List Register) : Pass Bool := do
  if registers.isEmpty then
    pure false
  else
    Pass.insertInstructions id index (restoreInstrs registers)
    pure true

end MachineCode
