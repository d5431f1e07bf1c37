import MachineCode.Frame.Pointer

/-!
# Prologue and epilogue

With a frame pointer, the frame holds the caller's frame pointer first, then the preserved
registers, then the local area; without one, the first part is missing. The prologue saves and
sets the frame pointer in front of the pushes of the preserved registers and allocates the
local area behind them. An epilogue releases the local area in front of the pops and
restores the frame pointer behind them.
-/

namespace MachineCode

/-- The bytes of a frame that its fixed regions occupy. -/
def fixedRegionSize (keepsFramePointer : Bool) (calleeSavedSize : UInt64) : UInt64 :=
  if keepsFramePointer then calleeSavedSize + Target.framePointerSlotSize else calleeSavedSize

/-- The bytes of a function's frame below its fixed regions. -/
def Function.localAreaSize (function : Function) (keepsFramePointer : Bool) :
    Except CodeError UInt64 :=
  let fixed := fixedRegionSize keepsFramePointer function.calleeSavedSize
  if fixed ≤ function.frame.stackSize then
    .ok (function.frame.stackSize - fixed)
  else
    .error (.inconsistentFrame function.frame.stackSize fixed)

def Instr.isPush (instr : Instr) : Bool :=
  instr.opcode == .push16r

/-- Whether an instruction is a pop or a terminator, which an epilogue leaves behind it. -/
def Instr.isPopOrTerminator (instr : Instr) : Bool :=
  instr.opcode == .pop16r || instr.isTerminator

/-- Save the caller's frame pointer at the start of the entry block and set the function's own.
Every other block receives its value. -/
def setUpFramePointer (id : BlockId) (localArea : UInt64) : Pass Unit := do
  modify fun function =>
    { function with frame := { function.frame with offsetAdjustment := -localArea.toInt64 } }
  Pass.insertInstructions id 0 [.push .fp]
  Pass.insertInstructions id 1 [.copy .fp .sp]
  ((← get).blockIds.drop 1).forM fun other => Pass.addLiveIn other .fp

/-- Allocate a local area behind the pushes that stand in a row from a position of a block on. -/
def allocateLocalArea (id : BlockId) (start : Nat) (localArea : UInt64) : Pass Unit := do
  let instrs := (← Pass.block id).instrs
  let position ← Pass.ofExcept (rowEnd Instr.isPush instrs (instrs.length - start) start)
  if localArea ≠ 0 then
    let allocation ← Pass.ofExcept
      (Instr.makeAdjust .sub16ri (.physical .sp) localArea.toInt64)
    Pass.insertInstructions id position [allocation]

/-- Insert the prologue, which belongs into the entry block. -/
def emitPrologue (options : Options) (id : BlockId) : Pass Unit := do
  match (← get).entryBlock? with
  | none => throw (.unknownBlock id)
  | some entry =>
      if entry ≠ id then
        throw (.shrinkWrapping id entry)
      else
        let keeps ← decideFramePointer options
        let localArea ← Pass.ofExcept ((← get).localAreaSize keeps)
        if keeps then
          setUpFramePointer id localArea
        allocateLocalArea id (if keeps then 2 else 0) localArea

/-- Release a local area in front of the pops and terminators that stand in a row up to a position
of a block. Where objects of variable size lie below it, the stack pointer is taken from the frame
pointer. -/
def releaseLocalArea (id : BlockId) (stop : Nat) (hasVarSizedObjects : Bool)
    (calleeSavedSize localArea : UInt64) : Pass Unit := do
  let instrs := (← Pass.block id).instrs
  let position ← Pass.ofExcept (rowStart Instr.isPopOrTerminator instrs stop)
  if hasVarSizedObjects then
    Pass.insertInstructions id position [.copy .sp .fp]
    if calleeSavedSize ≠ 0 then
      let below ← Pass.ofExcept
        (Instr.makeAdjust .sub16ri (.physical .sp) calleeSavedSize.toInt64)
      Pass.insertInstructions id (position + 1) [below]
  else if localArea ≠ 0 then
    let release ← Pass.ofExcept (Instr.makeAdjust .add16ri (.physical .sp) localArea.toInt64)
    Pass.insertInstructions id position [release]

/-- Insert an epilogue, which belongs into a returning block. The frame pointer is restored right
before the return. -/
def emitEpilogue (options : Options) (id : BlockId) : Pass Unit := do
  let keeps ← decideFramePointer options
  let function ← get
  let block ← Pass.block id
  if block.isReturning then
    let localArea ← Pass.ofExcept (function.localAreaSize keeps)
    let last ← Pass.ofExcept (lastPosition block.instrs)
    if keeps then
      Pass.insertInstructions id last [.pop .fp]
    releaseLocalArea id (if keeps then last + 1 else last) function.frame.hasVarSizedObjects
      function.calleeSavedSize localArea
  else
    throw (.notAReturnBlock id (block.last?.map Instr.opcode))

end MachineCode
