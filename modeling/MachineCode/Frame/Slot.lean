import MachineCode.Frame.Pointer

/-!
# Frame slots

A frame slot operand, followed by an immediate addend, becomes a base register and a
displacement. The instruction that takes the address of a slot becomes a copy of the base
register followed by an addition or subtraction of the displacement.
-/

namespace MachineCode

/-- The displacement of an object from the frame register. -/
def Frame.displacement (frame : Frame) (keepsFramePointer : Bool) (object : FrameObject)
    (addend : Int64) : Int64 :=
  object.offset + Target.returnAddressSize +
    (if keepsFramePointer then Target.framePointerSlotSize.toInt64 else frame.stackSize.toInt64) +
    addend

/-- The displacement that takes the place of the slot at an operand position, with the addend that
follows the slot. -/
def Frame.slotDisplacement (frame : Frame) (keepsFramePointer : Bool) (instr : Instr)
    (position : Nat) : Except CodeError Int64 := do
  match ← instr.operand position with
  | .frameIndex index =>
      let addend ← instr.immediateOperand (position + 1)
      let object ← frame.object index
      pure (frame.displacement keepsFramePointer object addend)
  | _ => .error (instr.malformed position .frameIndex)

/-- Turn the instruction at a position of a block, which takes the address of the slot at an operand
position, into a copy of the frame register, and add the displacement to the target behind it. -/
def resolveAddress (id : BlockId) (index position : Nat) (base : Operand) (target : Reg)
    (displacement : Int64) : Pass Unit := do
  Pass.editInstruction id index fun sum => .ok { sum with opcode := .mov16rr }
  Pass.editInstruction id index fun copy => copy.setOperand position base
  Pass.editInstruction id index fun copy =>
    .ok { copy with operands := copy.operands.take (position + 1) }
  if displacement ≠ 0 then
    let opcode := if displacement < 0 then Opcode.sub16ri else .add16ri
    let added ← Pass.ofExcept (Instr.makeAdjust opcode target displacement.abs)
    Pass.insertInstructions id (index + 1) [added]

/-- Let the instruction at a position of a block address memory through the frame register. -/
def resolveAccess (id : BlockId) (index position : Nat) (base : Operand) (displacement : Int64) :
    Pass Unit := do
  Pass.editInstruction id index fun access => access.setOperand position base
  Pass.editInstruction id index fun access =>
    access.setOperand (position + 1) (.immediate displacement)

/-- Resolve the slot at an operand position of an instruction of a block, in place. Inside a call
sequence that has moved the stack pointer this is refused. -/
def eliminateSlot (options : Options) (id : BlockId) (index position : Nat)
    (stackAdjustment : Int64) : Pass Unit := do
  if stackAdjustment ≠ 0 then
    throw (.unexpectedSpAdjustment stackAdjustment)
  else
    let keeps ← decideFramePointer options
    let instr ← Pass.instruction id index
    let displacement ← Pass.ofExcept ((← get).frame.slotDisplacement keeps instr position)
    let base := Operand.use (frameRegister keeps)
    if instr.opcode = .add16ri then
      let target ← Pass.ofExcept (instr.registerOperand 0)
      resolveAddress id index position base target displacement
    else
      resolveAccess id index position base displacement

end MachineCode
