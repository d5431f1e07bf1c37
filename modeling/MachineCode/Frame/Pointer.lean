import MachineCode.Pass
import MachineCode.Target

/-!
# The frame pointer

A function keeps a frame pointer when the options ask for it, when its frame holds objects of
variable size, or when the address of its frame escapes. The question is answered once for
each function and the answer never changes, because all offsets depend on it.
-/

namespace MachineCode

namespace Frame

/-- Whether the frame, as it stands, calls for a frame pointer. -/
def wantsFramePointer (frame : Frame) (options : Options) : Bool :=
  options.keepFramePointer || frame.hasVarSizedObjects || frame.isAddressTaken

/-- Whether the function keeps a frame pointer: an answer that was given stands. -/
def hasFramePointer (frame : Frame) (options : Options) : Bool :=
  frame.framePointer?.getD (frame.wantsFramePointer options)

/-- Record the answer. -/
def decideFramePointer (frame : Frame) (options : Options) : Frame :=
  { frame with framePointer? := some (frame.hasFramePointer options) }

@[simp] theorem hasFramePointer_decideFramePointer (frame : Frame) (options later : Options) :
    (frame.decideFramePointer options).hasFramePointer later = frame.hasFramePointer options := by
  simp [decideFramePointer, hasFramePointer]

end Frame

/-- Decide whether the function keeps a frame pointer. -/
def decideFramePointer (options : Options) : Pass Bool := do
  let keeps := (← get).frame.hasFramePointer options
  modify fun function => { function with frame := function.frame.decideFramePointer options }
  pure keeps

@[simp] theorem run_decideFramePointer (options : Options) (function : Function) :
    (decideFramePointer options).run function =
      .ok (function.frame.hasFramePointer options)
        { function with frame := function.frame.decideFramePointer options } := rfl

/-- The register from which frame slots are addressed. -/
def frameRegister (keepsFramePointer : Bool) : Register :=
  if keepsFramePointer then .fp else .sp

/-- The registers that the allocator must not use. -/
def reservedRegisters (keepsFramePointer : Bool) : RegisterSet :=
  let special := [Register.pc, .sp, .sr, .cg]
  let reserved := if keepsFramePointer then special ++ [.fp] else special
  .ofList (reserved ++ reserved.map Register.byteAlias)

/-- Ask for the register from which frame slots are addressed. -/
def readFrameRegister (options : Options) : Pass Register :=
  return frameRegister (← decideFramePointer options)

/-- Ask for the registers that the allocator must not use. -/
def readReservedRegisters (options : Options) : Pass RegisterSet :=
  return reservedRegisters (← decideFramePointer options)

/-- Whether the area for outgoing arguments is part of the fixed frame. -/
def Frame.hasReservedCallFrame (frame : Frame) : Bool :=
  !frame.hasVarSizedObjects

/-- The slot in which a function with a frame pointer saves its caller's. -/
def framePointerSlot : FrameObject :=
  { size := Target.framePointerSlotSize, offset := Target.framePointerSlotOffset }

/-- Give a function with a frame pointer the slot for its caller's, below all fixed objects. -/
def addFramePointerSlot (options : Options) : Pass Unit := do
  if ← decideFramePointer options then
    let (index, frame) := (← get).frame.addFixedObject framePointerSlot
    modify fun function => { function with frame }
    if index ≠ frame.lowestIndex then
      throw (.framePointerSlot index frame.lowestIndex)

end MachineCode
