import MachineCode.Proofs.Frame.Calling
import MachineCode.Proofs.Frame.Standing

/-!
# Stack discipline

A lowered function returns with the stack pointer, the frame pointer and the preserved registers
that it was entered with, on every path and whatever its body does to the other registers. The
invariant at block boundaries is that the frame stands (`Framed`) and, unless objects of variable
size move it, that the stack pointer is where the entry code has left it. Inside a block, the
stack pointer is off by what callees have popped and call sequences have not yet taken back.
-/

namespace MachineCode

/-- An activation of a function: the state on entry, the bytes that its callees pop, and the
shape of its frame. -/
structure Activation where
  entry : Machine
  pops : BlockId → Nat → BitVec 16
  keeps : Bool
  registers : List Register
  localArea : UInt64
  hasVarSizedObjects : Bool

namespace Activation

def frameSp (activation : Activation) : BitVec 16 :=
  savedTop activation.entry activation.keeps activation.registers +
    -wordOf activation.localArea.toInt64

def environment (activation : Activation) : Environment where
  pops := activation.pops
  saveArea := bytesBelow activation.entry.sp (saveBytes activation.keeps activation.registers)

/-- The frame of the activation: what has been saved lies in its place. -/
def bodyFrame (activation : Activation) : BodyFrame where
  saveArea := activation.environment.saveArea
  sp := activation.frameSp
  hasVarSizedObjects := activation.hasVarSizedObjects
  stands := Framed activation.entry activation.keeps activation.registers
  kept _ _ framed same sameFp := framed.of_unchanged same sameFp

abbrev InBody (activation : Activation) : BitVec 16 → Machine → Prop :=
  activation.bodyFrame.InBody

/-- What has to hold in front of an instruction: a branch stays in the body, and a return has a
state that the caller expects. -/
structure Checked (activation : Activation) (instr : Instr) (machine : Machine) : Prop where
  branches : activation.bodyFrame.BranchesInBody instr machine
  returns : instr.isReturn = true → Returned activation.entry activation.registers machine

variable {activation : Activation}

theorem checked_of_branchesInBody (instr : Instr) (machine : Machine)
    (goesOn : instr.isReturn = false)
    (branches : activation.bodyFrame.BranchesInBody instr machine) :
    activation.Checked instr machine := by
  refine ⟨branches, ?_⟩
  intro isReturn
  cases goesOn.symm.trans isReturn

theorem checked_of_not_terminator (instr : Instr) (machine : Machine)
    (goesOn : instr.isTerminator = false) : activation.Checked instr machine :=
  BodyFrame.check_of_not_terminator checked_of_branchesInBody instr machine goesOn

/-- What an activation owes to the way in which lowering has made its frame. -/
structure Regular (activation : Activation) (frame : Frame) (savedBytes : UInt64) : Prop where
  reserved : frame.hasReservedCallFrame = !activation.hasVarSizedObjects
  dynamic : activation.hasVarSizedObjects = true → activation.keeps = true
  size : wordOf savedBytes.toInt64 = BitVec.ofNat 16 (2 * activation.registers.length)
  fits : saveBytes activation.keeps activation.registers < 65536
  words : ∀ register ∈ activation.registers, register.width = .word
  noStackPointer : ∀ register ∈ activation.registers, register.number ≠ Register.sp.number

section

variable {options : Options} {frame : Frame} {last : Int64} {savedBytes : UInt64}
  {items : List Instr} {machine : Machine} {setting : Setting}

/-- Exit code leads to a state that the caller expects. -/
theorem safe_leaving {adjustment : Int64} {returning : Instr} {leaving : List Instr}
    (regular : activation.Regular frame savedBytes) (inBody : activation.InBody 0#16 machine)
    (isReturn : returning.isReturn = true)
    (returned : lowerInstr options frame activation.keeps adjustment returning =
      .done leaving last) :
    Safe setting activation.Checked (activation.InBody 0#16)
      (exitCode activation.keeps activation.registers
        (release activation.hasVarSizedObjects savedBytes activation.localArea) ++ leaving)
      machine := by
  have fixed : activation.hasVarSizedObjects = false → machine.sp = activation.frameSp := by
    intro fixed
    rw [inBody.sp fixed, BitVec.add_zero]
    rfl
  apply (safe_exitCode checked_of_not_terminator inBody.stands regular.words
    regular.noStackPointer fixed regular.dynamic regular.size).append
  intro restored expected
  apply Safe.of_return isReturn returned
  intro resolved _ noBranch
  refine ⟨?_, fun _ => expected⟩
  intro isBranch
  cases noBranch.symm.trans isBranch

theorem safe_entering {isEntry : Bool} (regular : activation.Regular frame savedBytes)
    (start : if isEntry then machine = activation.entry else activation.InBody 0#16 machine) :
    Safe setting activation.Checked (activation.InBody 0#16)
      (if isEntry then entryCode activation.keeps activation.registers activation.localArea else [])
      machine := by
  cases isEntry with
  | false => exact start
  | true =>
      cases start
      apply (safe_entryCode checked_of_not_terminator activation.localArea regular.fits
        regular.words regular.noStackPointer).mono
      intro after ⟨framed, spEq⟩
      refine ⟨framed, fun _ => ?_⟩
      rw [spEq, BitVec.add_zero]
      rfl

/-- A block is safe from the boundary on, and the entry block from the entry on. -/
theorem safe_block {isEntry : Bool} {id : BlockId} {original : Block}
    (regular : activation.Regular frame savedBytes)
    (lowerable : LowerableBlock (activation.pops id) activation.hasVarSizedObjects
      original.instrs)
    (noSkip : ∀ instr ∈ original.instrs, instr.isSkip = false)
    (swept : Sweep.run (lowerInstr options frame activation.keeps) 0
      (framedInstrs activation.keeps activation.registers activation.localArea
        (release activation.hasVarSizedObjects savedBytes activation.localArea) isEntry
        original.isReturning original.instrs) = .done items last)
    (start : if isEntry then machine = activation.entry else activation.InBody 0#16 machine) :
    Safe (activation.environment.setting id) activation.Checked (activation.InBody 0#16) items
      machine :=
  BodyFrame.safe_block checked_of_branchesInBody regular.reserved lowerable noSkip
    (lowerable.blockCode swept) (callCount_exitCode _ _ _ _ _)
    (fun _ => safe_entering regular start) (safe_leaving regular)

end

end Activation

open Activation

theorem saveBytes_lt {registers : List Register} (fits : registers.length < 32767) (keeps : Bool) :
    saveBytes keeps registers < 65536 := by
  unfold saveBytes
  split <;> omega

/-- The activation of a lowered function. -/
def activationOf (pops : BlockId → Nat → BitVec 16) (options : Options) (function : Function)
    (localArea : UInt64) (entry : Machine) : Activation where
  entry
  pops
  keeps := function.frame.hasFramePointer options
  registers := function.calleeSaved
  localArea
  hasVarSizedObjects := function.frame.hasVarSizedObjects

section

variable {options : Options} {function lowered : Function} {pops : BlockId → Nat → BitVec 16}
  {localArea : UInt64} (entry : Machine)

theorem regular_activationOf (lowerable : Lowerable pops function)
    (lowers :
      LowersTo options function lowered (function.frame.hasFramePointer options) localArea) :
    (activationOf pops options function localArea entry).Regular lowered.frame
      function.savedBytes := by
  refine ⟨lowers.reserved, ?_, ?_, saveBytes_lt lowerable.fits _, ?_, ?_⟩
  · intro dynamic
    have dynamicFrame : function.frame.hasVarSizedObjects = true := dynamic
    have wanted : function.frame.hasFramePointer options = true := by
      rw [Frame.hasFramePointer, lowerable.undecided, Option.getD_none,
        Frame.wantsFramePointer, dynamicFrame, Bool.or_true, Bool.true_or]
    exact wanted
  · rw [savedBytes_of_unsaved lowerable.unsaved]
    exact wordOf_savedSize function.calleeSaved
  · exact fun register member => (width_of_mem_calleeSaved (lowerable.drawn _ member)).1
  · exact fun register member => (width_of_mem_calleeSaved (lowerable.drawn _ member)).2

/-- The blocks of a lowered function keep the frame of its activation. -/
theorem safeBlocks_activationOf (lowerable : Lowerable pops function)
    (noSkips : function.hasSkips = false)
    (lowers :
      LowersTo options function lowered (function.frame.hasFramePointer options) localArea) :
    let activation := activationOf pops options function localArea entry
    SafeBlocks activation.environment lowered.blocks entry activation.Checked
      (activation.InBody 0#16) where
  entry block found := by
    obtain ⟨original, originalFound, last, swept⟩ := lowers.exists_original found
    exact safe_block (regular_activationOf entry lowerable lowers)
      (lowerable.blocks 0 original originalFound)
      (fun _ => function.isSkip_of_not_hasSkips noSkips originalFound) swept rfl
  block id block notEntry found before inBody := by
    obtain ⟨original, originalFound, last, swept⟩ := lowers.exists_original found
    rw [decide_eq_false notEntry] at swept
    exact safe_block (regular_activationOf entry lowerable lowers)
      (lowerable.blocks id original originalFound)
      (fun _ => function.isSkip_of_not_hasSkips noSkips originalFound) swept inBody
  branch instr target pops before after checked isBranch targets effect := by
    obtain ⟨notToEntry, -, holds⟩ := checked.branches isBranch
    refine ⟨?_, holds pops after effect⟩
    rintro rfl
    exact notToEntry targets
  skip instr machine checked := checked.branches.isSkip_eq

end

/-- A function that overwrites a preserved register, makes two calls through a register, of which
the first pops four bytes and the second two, and falls through to its return. -/
def caller : Function where
  name := "caller"
  frame := { stackSize := 8 }
  calleeSaved := [.r5, .r6]
  blocks := [
    { name := "start"
      instrs := [
        { opcode := .mov16ri, operands := [.define .r5, .immediate 7] },
        { opcode := .adjCallStackDown, operands := [.immediate 4] },
        { opcode := .jal, operands := [.use .r8] },
        { opcode := .adjCallStackUp, operands := [.immediate 4, .immediate 4] },
        { opcode := .adjCallStackDown, operands := [.immediate 2] },
        { opcode := .jal, operands := [.use .r8] },
        { opcode := .adjCallStackUp, operands := [.immediate 2, .immediate 2] }] },
    { name := "done", instrs := [{ opcode := .ret }] }]

/-- The same function with its frame, which holds a frame pointer. -/
def loweredCaller : Function where
  name := "caller"
  frame :=
    { stackSize := 8
      offsetAdjustment := -2
      fixedObjects := [framePointerSlot]
      framePointer? := some true }
  calleeSaved := [.r5, .r6]
  calleeSavedSize := 4
  blocks := [
    { name := "start"
      instrs := [
        .push .fp, .copy .fp .sp, .push .r6, .push .r5, .lowerStack 2,
        { opcode := .mov16ri, operands := [.define .r5, .immediate 7] },
        { opcode := .jal, operands := [.use .r8] },
        .lowerStack 4,
        { opcode := .jal, operands := [.use .r8] },
        .lowerStack 2]
      liveIns := .ofList [.r5, .r6] },
    { name := "done"
      instrs := [
        .raiseStack 2, .pop .r5, .pop .r6, .pop .fp, { opcode := .ret }]
      liveIns := .ofList [.fp] }]

def callerEnvironment : Environment where
  pops _ calls := if calls = 1 then 4#16 else 2#16
  saveArea := bytesBelow Machine.numbered.sp
    (saveBytes (caller.frame.hasFramePointer { keepFramePointer := true }) caller.calleeSaved)

/-- A function that branches over its first return by a number of bytes. -/
def skipping : Function where
  name := "skipping"
  frame := { stackSize := 2 }
  calleeSaved := [.r5]
  blocks := [
    { name := "start"
      instrs := [
        { opcode := .jcc, operands := [.immediate 4, .immediate Condition.equal.code] },
        { opcode := .mov16rr, operands := [.define .r8, .use .r9] },
        { opcode := .ret }] },
    { name := "next", instrs := [{ opcode := .ret }] }]

/-- The same function with its frame. The bytes of the branch end in front of the first return,
behind the pop. -/
def loweredSkipping : Function where
  name := "skipping"
  frame := { stackSize := 2, framePointer? := some false }
  calleeSaved := [.r5]
  calleeSavedSize := 2
  blocks := [
    { name := "start"
      instrs := [
        .push .r5,
        { opcode := .jcc, operands := [.immediate 4, .immediate Condition.equal.code] },
        { opcode := .mov16rr, operands := [.define .r8, .use .r9] },
        .pop .r5,
        { opcode := .ret }]
      liveIns := .ofList [.r5] },
    { name := "next", instrs := [.pop .r5, { opcode := .ret }] }]

def skippingEnvironment : Environment where
  pops _ _ := 0#16
  saveArea := bytesBelow Machine.numbered.sp
    (saveBytes (skipping.frame.hasFramePointer {}) skipping.calleeSaved)

end MachineCode
