import MachineCode.Proofs.Frame.Calling
import MachineCode.Proofs.Frame.Slot
import MachineCode.Proofs.Frame.Standing
import Mathlib.Data.List.Infix

/-!
# The addresses of slots

Slots are addressed from the frame pointer or, in a function without one, from the stack pointer.
Either way a slot lies at the same distance from the stack pointer that the function was entered
with: the displacements, the size of the local area and the pushes in the entry code cancel. Unless
the frame pointer is kept, that takes a stack pointer from which nothing popped is missing, so the
statement is about instructions outside of call sequences.
-/

namespace MachineCode

/-! ## Balanced call sequences -/

/-- The number of call sequences that an instruction opens. -/
def Instr.opening (instr : Instr) : Int :=
  match instr.opcode with
  | .adjCallStackDown => 1
  | .adjCallStackUp => -1
  | _ => 0

/-- The number of call sequences that instructions leave open. -/
def openCalls : List Instr → Int
  | [] => 0
  | instr :: rest => instr.opening + openCalls rest

/-- Whether call sequences take back what is popped inside of them: nothing is missing where no
call sequence is open. -/
def sequencesBalanced (pops : Nat → BitVec 16) : Int → BitVec 16 → List Instr → Bool
  | opened, level, [] => opened != 0 || level == 0#16
  | opened, level, instr :: rest =>
      (opened != 0 || level == 0#16) &&
        sequencesBalanced pops (opened + instr.opening)
          (level + instr.stackShift (pops (callCount rest))) rest

theorem callLevel_of_sequencesBalanced {setting : Setting} {opened : Int} {level : BitVec 16}
    {before after : List Instr}
    (balanced : sequencesBalanced setting.pops opened level (before ++ after) = true)
    (outside : opened + openCalls before = 0) :
    level + callLevel (setting.before after).pops before = 0#16 := by
  induction before generalizing opened level with
  | nil =>
      rw [openCalls, Int.add_zero] at outside
      rw [callLevel, BitVec.add_zero]
      cases after with
      | nil => simpa [sequencesBalanced, outside] using balanced
      | cons instr rest =>
          rw [List.nil_append, sequencesBalanced, Bool.and_eq_true] at balanced
          simpa [outside] using balanced.1
  | cons instr rest ih =>
      rw [List.cons_append, sequencesBalanced, Bool.and_eq_true, callCount_append] at balanced
      rw [openCalls, ← Int.add_assoc] at outside
      rw [callLevel, ← BitVec.add_assoc]
      exact ih balanced.2 outside

/-- What the addresses of slots rely on in a function: nothing about its frame has been decided, it
preserves registers that functions have to preserve, its body leaves the frame alone, and its call
sequences are balanced. -/
structure Addressable (pops : BlockId → Nat → BitVec 16) (function : Function) : Prop where
  undecided : function.frame.framePointer? = none
  unsaved : function.calleeSavedSize = 0
  drawn : ∀ register ∈ function.calleeSaved, register ∈ Register.calleeSaved
  blocks : LowerableBlocks pops function
  sequences : ∀ id block, function.block? id = some block →
    sequencesBalanced (pops id) 0 0#16 block.instrs = true

instance (pops : BlockId → Nat → BitVec 16) (function : Function) :
    Decidable (Addressable pops function) :=
  decidable_of_iff
    (function.frame.framePointer? = none ∧ function.calleeSavedSize = 0 ∧
      (∀ register ∈ function.calleeSaved, register ∈ Register.calleeSaved) ∧
      LowerableBlocks pops function ∧
      ∀ placed ∈ function.blocks.zipIdx,
        sequencesBalanced (pops placed.2) 0 0#16 placed.1.instrs = true)
    ⟨fun ⟨undecided, unsaved, drawn, blocks, sequences⟩ =>
        ⟨undecided, unsaved, drawn, blocks, fun id block found =>
          sequences (block, id) (List.mk_mem_zipIdx_iff_getElem?.mpr found)⟩,
      fun addressable => ⟨addressable.undecided, addressable.unsaved, addressable.drawn,
        addressable.blocks, fun placed member => addressable.sequences placed.2 placed.1
          (List.mk_mem_zipIdx_iff_getElem?.mp member)⟩⟩

/-- A function without a frame pointer has a fixed frame. -/
theorem Addressable.fixed {pops : BlockId → Nat → BitVec 16} {function : Function}
    {options : Options} (addressable : Addressable pops function)
    (drops : function.frame.hasFramePointer options = false) :
    function.frame.hasVarSizedObjects = false := by
  rw [Frame.hasFramePointer, addressable.undecided, Option.getD_none, Frame.wantsFramePointer,
    Bool.or_eq_false_iff, Bool.or_eq_false_iff] at drops
  exact drops.1.2

/-! ## The registers of a running body -/

section

variable {setting : Setting} {check : Instr → Machine → Prop}
  (unchecked : ∀ instr machine, instr.isTerminator = false → check instr machine)

include unchecked

/-- Pushes lower the stack pointer and leave the other registers alone, wherever they write. -/
theorem safe_saveInstrs_registers {registers : List Register} (machine : Machine)
    (words : ∀ register ∈ registers, register.width = .word) :
    Safe setting check
      (fun after => after.sp = machine.sp - BitVec.ofNat 16 (2 * registers.length) ∧
        after.fp = machine.fp)
      (saveInstrs registers) machine := by
  induction registers generalizing setting with
  | nil => exact ⟨(BitVec.sub_zero _).symm, rfl⟩
  | cons register rest ih =>
      rw [List.forall_mem_cons] at words
      rw [saveInstrs, List.reverse_cons, List.map_append]
      apply (ih words.2).append
      rintro between ⟨spEq, fpEq⟩
      apply Safe.single (unchecked _ _ rfl)
      intro next effect
      obtain rfl := (effect_push words.1).mp effect
      have pushedSp : (between.push register.number).sp = between.sp - 2 :=
        Machine.registers_set_self _ _ _
      have pushedFp : (between.push register.number).fp = between.fp :=
        Machine.registers_set_of_ne _ _ (by decide)
      refine ⟨?_, pushedFp.trans fpEq⟩
      rw [pushedSp, spEq, List.length_cons, Nat.mul_add, BitVec.ofNat_add]
      generalize BitVec.ofNat 16 (2 * rest.length) = size
      bv_omega

/-- Entry code sets the frame pointer and lowers the stack pointer to the body's. -/
theorem safe_entryCode_registers {entry : Machine} {keeps : Bool} {registers : List Register}
    (localArea : UInt64) (words : ∀ register ∈ registers, register.width = .word) :
    Safe setting check
      (fun after => (keeps = true → after.fp = entry.sp - 2) ∧
        after.sp = savedTop entry keeps registers + -wordOf localArea.toInt64)
      (entryCode keeps registers localArea) entry := by
  rw [entryCode, List.append_assoc]
  apply (safe_framePointerSetup unchecked).append
  intro middle entered
  apply (safe_saveInstrs_registers unchecked middle words).append
  rintro between ⟨spEq, fpEq⟩
  apply safe_allocation unchecked
  · intro machine status value standing kept
    rw [← standing kept]
    exact (Machine.registers_set_of_ne _ _ (by decide)).trans
      (Machine.registers_set_of_ne _ _ (by decide))
  · rintro rfl
    rw [fpEq]
    exact (entered.registers _ (by decide)).trans (Machine.registers_set_self _ _ _)
  · rw [spEq, entered.sp]
    cases keeps with
    | false =>
        rw [savedTop_of_not_keeps, ← BitVec.sub_eq_add_neg, if_neg Bool.false_ne_true]
        congr 1
        exact BitVec.sub_zero _
    | true => rw [savedTop_of_keeps, ← BitVec.sub_eq_add_neg, if_pos rfl]

end

/-- The frame of a function from which slots are addressed. -/
def slotFrame (saveArea : BitVec 16 → Prop) (entry : Machine) (keeps : Bool) (function : Function)
    (localArea : UInt64) : BodyFrame where
  saveArea
  sp := savedTop entry keeps function.calleeSaved + -wordOf localArea.toInt64
  hasVarSizedObjects := function.frame.hasVarSizedObjects
  stands machine := keeps = true → machine.fp = entry.sp - 2
  kept _ _ stands _ sameFp kept := sameFp.trans (stands kept)

/-- The place of an object with an addend: relative to the stack pointer on entry, which points to
the return address. -/
def slotAddress (entry : Machine) (object : FrameObject) (addend : Int64) : BitVec 16 :=
  entry.sp + 2 + wordOf object.offset + wordOf addend

theorem wordOf_fixedRegionSize {function : Function} (unsaved : function.calleeSavedSize = 0)
    (keeps : Bool) :
    wordOf (fixedRegionSize keeps function.savedBytes).toInt64 =
      BitVec.ofNat 16 (saveBytes keeps function.calleeSaved) := by
  have sizeEq := wordOf_savedSize function.calleeSaved
  rw [← savedBytes_of_unsaved unsaved] at sizeEq
  rw [fixedRegionSize, saveBytes, BitVec.ofNat_add, ← sizeEq]
  cases keeps with
  | false => exact (BitVec.add_zero _).symm
  | true =>
      rw [if_pos rfl, if_pos rfl, UInt64.toInt64_add, wordOf_add]
      rfl

/-- The local area and the pushes make up the frame. -/
theorem sp_slotFrame {saveArea : BitVec 16 → Prop} {entry : Machine} {keeps : Bool}
    {function : Function} {localArea : UInt64} (unsaved : function.calleeSavedSize = 0)
    (area : { function with calleeSavedSize := function.savedBytes }.localAreaSize keeps =
      .ok localArea) :
    (slotFrame saveArea entry keeps function localArea).sp =
      entry.sp - wordOf function.frame.stackSize.toInt64 := by
  have sizeEq := wordOf_fixedRegionSize unsaved keeps
  rw [Function.localAreaSize] at area
  dsimp only at area
  split at area
  next =>
    cases area
    rw [slotFrame, savedTop, ← sizeEq, UInt64.toInt64_sub, Int64.sub_eq_add_neg, wordOf_add,
      wordOf_neg]
    grind
  next => contradiction

/-- From either base, the displacement of an object leads to its place. -/
theorem slotFrame_address {saveArea : BitVec 16 → Prop} {entry machine : Machine} {keeps : Bool}
    {function : Function} {localArea : UInt64} {frame : Frame} {object : FrameObject}
    {addend : Int64} (unsaved : function.calleeSavedSize = 0)
    (area : { function with calleeSavedSize := function.savedBytes }.localAreaSize keeps =
      .ok localArea)
    (fixed : keeps = false → function.frame.hasVarSizedObjects = false)
    (stackSize : frame.stackSize = function.frame.stackSize)
    (inBody : (slotFrame saveArea entry keeps function localArea).InBody 0#16 machine) :
    machine.registers (frameRegister keeps).number +
        wordOf (frame.displacement keeps object addend) =
      slotAddress entry object addend := by
  rw [Frame.displacement, slotAddress, wordOf_add, wordOf_add, wordOf_add, stackSize]
  have returnAddress : wordOf Target.returnAddressSize = 2#16 := rfl
  cases keeps with
  | false =>
      have spEq : machine.sp = entry.sp - wordOf function.frame.stackSize.toInt64 := by
        rw [← sp_slotFrame unsaved area, inBody.sp (fixed rfl), BitVec.add_zero]
      change machine.sp + _ = _
      rw [spEq, returnAddress, if_neg Bool.false_ne_true]
      grind
  | true =>
      have framePointer : wordOf Target.framePointerSlotSize.toInt64 = 2#16 := rfl
      change machine.fp + _ = _
      rw [inBody.stands rfl, returnAddress, if_pos rfl, framePointer]
      grind

/-! ## Paths to an instruction -/

section

variable {environment : Environment} {options : Options} {function lowered : Function}
  {keeps : Bool} {localArea : UInt64} {entry machine : Machine} {id : BlockId}

theorem safe_entering_slotFrame {setting : Setting} {saveArea : BitVec 16 → Prop}
    (drawn : ∀ register ∈ function.calleeSaved, register ∈ Register.calleeSaved)
    (start : if id = 0 then machine = entry
      else (slotFrame saveArea entry keeps function localArea).InBody 0#16 machine) :
    Safe setting (slotFrame saveArea entry keeps function localArea).BranchesInBody
      ((slotFrame saveArea entry keeps function localArea).InBody 0#16)
      (if decide (id = 0) then entryCode keeps function.calleeSaved localArea else []) machine := by
  by_cases isEntry : id = 0
  · rw [if_pos isEntry] at start
    rw [if_pos (decide_eq_true isEntry), start]
    have words : ∀ register ∈ function.calleeSaved, register.width = .word :=
      fun register member => (width_of_mem_calleeSaved (drawn register member)).1
    have unchecked := BodyFrame.check_of_not_terminator
      (slotFrame saveArea entry keeps function localArea).checked_self
    apply (safe_entryCode_registers unchecked localArea words).mono
    rintro after ⟨fpEq, spEq⟩
    refine ⟨fpEq, fun _ => ?_⟩
    rw [spEq, BitVec.add_zero]
    rfl
  · rw [if_neg isEntry] at start
    rw [if_neg (by simpa using isEntry)]
    exact start

/-- A lowered block keeps the frame from which slots are addressed. -/
theorem safe_block_slotFrame (addressable : Addressable environment.pops function)
    (noSkips : function.hasSkips = false)
    (lowers : LowersTo options function lowered keeps localArea) {block : Block}
    (found : lowered.block? id = some block)
    (start : if id = 0 then machine = entry
      else (slotFrame environment.saveArea entry keeps function localArea).InBody 0#16 machine) :
    Safe (environment.setting id)
      (slotFrame environment.saveArea entry keeps function localArea).BranchesInBody
      ((slotFrame environment.saveArea entry keeps function localArea).InBody 0#16) block.instrs
      machine := by
  obtain ⟨original, originalFound, last, swept⟩ := lowers.exists_original found
  have lowerable := addressable.blocks id original originalFound
  apply BodyFrame.safe_block
    (slotFrame environment.saveArea entry keeps function localArea).checked_self
    lowers.reserved lowerable (fun _ => function.isSkip_of_not_hasSkips noSkips originalFound)
    (lowerable.blockCode swept) (callCount_exitCode _ _ _ _ _)
    (fun _ => safe_entering_slotFrame addressable.drawn start)
  intro left returning leaving adjustment last _ isReturn returned
  have unbranched : ∀ instr machine, instr.isBranch = false →
      (slotFrame environment.saveArea entry keeps function localArea).BranchesInBody instr
        machine := by
    intro instr machine noBranch isBranch
    cases noBranch.symm.trans isBranch
  apply (Safe.of_forall left (forall_mem_exitCode
    (fun _ machine => unbranched _ machine rfl) (fun _ _ machine => unbranched _ machine rfl)
    (fun _ machine => unbranched _ machine rfl) (fun _ machine => unbranched _ machine rfl)
    _ _ _ _ _)).append
  intro restored _
  exact Safe.of_return isReturn returned fun resolved _ noBranch =>
    unbranched resolved restored noBranch

theorem safeBlocks_slotFrame (addressable : Addressable environment.pops function)
    (noSkips : function.hasSkips = false)
    (lowers : LowersTo options function lowered keeps localArea) :
    SafeBlocks environment lowered.blocks entry
      (slotFrame environment.saveArea entry keeps function localArea).BranchesInBody
      ((slotFrame environment.saveArea entry keeps function localArea).InBody 0#16) where
  entry first firstFound := by
    apply safe_block_slotFrame addressable noSkips lowers firstFound
    rw [if_pos rfl]
  block next nextBlock notEntry nextFound between inBody := by
    apply safe_block_slotFrame addressable noSkips lowers nextFound
    rwa [if_neg notEntry]
  branch instr target pops between reaching branches isBranch targets effect := by
    obtain ⟨notToEntry, -, holds⟩ := branches isBranch
    refine ⟨?_, holds pops reaching effect⟩
    rintro rfl
    exact notToEntry targets
  skip instr machine branches := branches.isSkip_eq

/-- Outside of call sequences, a path that has come to the code behind some instructions finds the
frame as entry code has left it. -/
theorem inBody_of_reached (addressable : Addressable environment.pops function)
    (noSkips : function.hasSkips = false)
    (lowers : LowersTo options function lowered keeps localArea) {original block : Block}
    {before after swept rest : List Instr} {adjustment : Int64}
    (found : function.block? id = some original)
    (instrsEq : original.instrs = before ++ after) (outside : openCalls before = 0)
    (goesOn : ∀ instr ∈ before, instr.isReturn = false)
    (ran : Sweep.run (lowerInstr options lowered.frame keeps) 0 before = .done swept adjustment)
    (blockFound : lowered.block? id = some block)
    (blockEq : block.instrs =
      (if decide (id = 0) then entryCode keeps function.calleeSaved localArea else []) ++ swept ++
        rest)
    (sameCalls : callCount rest = callCount after)
    (reached : Reached environment lowered.blocks entry id rest machine) :
    (slotFrame environment.saveArea entry keeps function localArea).InBody 0#16 machine := by
  have sequences := addressable.sequences id original found
  obtain ⟨each, balanced, -⟩ := addressable.blocks id original found
  have noSkip (instr : Instr) (member : instr ∈ before) : instr.isSkip = false := by
    apply function.isSkip_of_not_hasSkips noSkips found
    rw [instrsEq]
    exact List.mem_append_left _ member
  rw [instrsEq] at each balanced sequences
  obtain ⟨other, passed, boundary, otherFound, otherEq, start, passedRan⟩ :=
    reached.exists_boundary (safeBlocks_slotFrame addressable noSkips lowers)
  cases blockFound.symm.trans otherFound
  have passedEq := List.append_cancel_right (blockEq.symm.trans otherEq)
  rw [← passedEq, Setting.before_congr _ sameCalls] at passedRan
  apply passedRan.outcome
  apply (safe_entering_slotFrame addressable.drawn start).append
  intro between inBody
  have safe := BodyFrame.safe_prefix
    (slotFrame environment.saveArea entry keeps function localArea).checked_self lowers.reserved
    (fun instr inFront => each instr (List.mem_append_left _ inFront)) noSkip goesOn balanced ran
    inBody
  have level := @callLevel_of_sequencesBalanced (environment.setting id) _ _ _ _ sequences
    ((Int.zero_add _).trans outside)
  rwa [show 0#16 + callLevel (((slotFrame environment.saveArea entry keeps function
    localArea).setting (environment.pops id)).before after).pops before = 0#16 from level] at safe

end

/-- The code of an instruction in a lowered block, with what stands in front of it and behind it:
in front is the code of the instructions that precede it and, in the entry block, entry code. -/
structure CodeAt (options : Options) (function lowered : Function) (id : BlockId)
    (before : List Instr) (instr : Instr) (front code back : List Instr) : Prop where
  block : lowered.instrs? id = some (front ++ (code ++ back))
  made : ∃ localArea swept adjustment next,
    { function with calleeSavedSize := function.savedBytes }.localAreaSize
      (function.frame.hasFramePointer options) = .ok localArea ∧
    front = (if id = 0 then
      entryCode (function.frame.hasFramePointer options) function.calleeSaved localArea
        else []) ++ swept ∧
    Sweep.run (lowerInstr options lowered.frame (function.frame.hasFramePointer options)) 0 before =
      .done swept adjustment ∧
    lowerInstr options lowered.frame (function.frame.hasFramePointer options) adjustment instr =
      .done code next

/-- The code of an instruction with a slot addresses a place: the load or the store uses the
address, and the code that takes it leaves it in its target, be that a register of the machine or a
register that has not been allocated. -/
inductive Addresses (setting : Setting) (instr : Instr) (machine : Machine)
    (address : BitVec 16) : List Instr → Prop
  | access {access : Instr} (isAccess : instr.opcode ≠ .add16ri)
      (sameOpcode : access.opcode = instr.opcode)
      (uses : access.address? machine = some address) :
      Addresses setting instr machine address [access]
  | taken {base : Register} {target : Reg} {flags : RegisterFlags} {displacement : Int64}
      (isSum : instr.opcode = .add16ri)
      (targetFound : instr.operands[0]? = some (.register target flags))
      (computes : ∀ value : Reg → BitVec 16,
        (∀ register, value (.physical register) = machine.registers register.number) →
          computed value (takeAddress base target flags displacement) target = address)
      (leaves : ∀ register, target = .physical register → register.width = .word →
        ∀ after, Ran setting (takeAddress base target flags displacement) machine after →
          after.registers register.number = address) :
      Addresses setting instr machine address (takeAddress base target flags displacement)

theorem frameRegister_width (keeps : Bool) : (frameRegister keeps).width = .word := by
  cases keeps <;> rfl

/-- The code of an instruction with a slot addresses what lies at the displacement of the slot from
the frame register. -/
theorem addresses_of_lowerInstr {options : Options} {frame : Frame} {keeps : Bool}
    {adjustment last : Int64} {instr : Instr} {code : List Instr} {index : FrameIndex}
    {addend : Int64} {object : FrameObject} (slot : instr.slot? = some (index, addend))
    (ran : lowerInstr options frame keeps adjustment instr = .done code last)
    (objectFound : frame.object index = .ok object) (setting : Setting) (machine : Machine) :
    Addresses setting instr machine
      (machine.registers (frameRegister keeps).number +
        wordOf (frame.displacement keeps object addend)) code := by
  obtain ⟨_, sameFound, forms⟩ := lowerInstr_slot_eq_done slot ran
  cases objectFound.symm.trans sameFound
  rcases forms with
    ⟨isAccess, access, rfl, sameOpcode, uses⟩ | ⟨isSum, target, flags, targetFound, rfl⟩
  · exact .access isAccess sameOpcode (uses machine)
  · refine .taken isSum targetFound ?_ ?_
    · intro value holds
      rw [computed_takeAddress, holds]
    · rintro register rfl isWord after takes
      exact takes.takeAddress (frameRegister_width keeps) isWord

theorem LowersTo.object {options : Options} {function lowered : Function} {keeps : Bool}
    {localArea : UInt64} (lowers : LowersTo options function lowered keeps localArea)
    {index : FrameIndex} {declared : FrameObject}
    (found : function.frame.object index = .ok declared) :
    lowered.frame.object index = .ok declared := by
  unfold Frame.object at found ⊢
  split at found
  next object objectFound =>
    cases found
    have kept : lowered.frame.object? index = some declared := by
      unfold Frame.object? at objectFound ⊢
      split at objectFound
      next isFixed =>
        obtain ⟨added, fixedEq⟩ := lowers.fixedObjects
        rw [if_pos isFixed, ← fixedEq,
          List.getElem?_append_left (List.getElem?_eq_some_iff.mp objectFound).1]
        exact objectFound
      next isOrdinary =>
        rw [if_neg isOrdinary, lowers.frame]
        exact objectFound
    rw [kept]
  next => contradiction

/-- The load of a word from a place. -/
def loadWord (base : Operand) (displacement : Int64) : Instr :=
  { opcode := .mov16rm, operands := [.define .r9, base, .immediate displacement] }

/-- The call of a function that pops its two bytes of arguments. -/
def callSequence : List Instr :=
  [{ opcode := .adjCallStackDown, operands := [.immediate 2] },
    { opcode := .jal, operands := [.symbol "callee"] },
    { opcode := .adjCallStackUp, operands := [.immediate 2, .immediate 2] }]

/-- A function that loads from a slot after a call. -/
def loader : Function where
  name := "loader"
  frame := { stackSize := 8, objects := [{ size := 4, offset := -8 }] }
  calleeSaved := [.r8]
  blocks := [
    { name := "start"
      instrs := callSequence ++ [loadWord (.frameIndex 0) 2, { opcode := .ret }] }]

/-- The same function with its frame, in which slots are addressed from the stack pointer. -/
def loweredLoader : Function where
  name := "loader"
  frame :=
    { stackSize := 8
      objects := [{ size := 4, offset := -8 }]
      framePointer? := some false }
  calleeSaved := [.r8]
  calleeSavedSize := 2
  blocks := [
    { name := "start"
      instrs := [
        .push .r8, .lowerStack 6,
        { opcode := .jal, operands := [.symbol "callee"] },
        .lowerStack 2,
        loadWord (.use .sp) 4,
        .raiseStack 6, .pop .r8, { opcode := .ret }]
      liveIns := .ofList [.r8] }]

def loaderEnvironment : Environment where
  pops _ _ := 2#16
  saveArea _ := False

/-- A function that branches over a call sequence by a number of bytes and then loads from a
slot. -/
def jumper : Function where
  name := "jumper"
  frame := { stackSize := 4, objects := [{ size := 4, offset := -4 }] }
  blocks := [
    { name := "start"
      instrs :=
        { opcode := .jcc, operands := [.immediate 4, .immediate Condition.equal.code] } ::
          (callSequence ++ [loadWord (.frameIndex 0) 2, { opcode := .ret }]) }]

/-- The same function with its frame. The bytes of the branch end behind the call, in front of the
instruction that takes back what the callee has popped. -/
def loweredJumper : Function where
  name := "jumper"
  frame :=
    { stackSize := 4
      objects := [{ size := 4, offset := -4 }]
      framePointer? := some false }
  blocks := [
    { name := "start"
      instrs := [
        .lowerStack 4,
        { opcode := .jcc, operands := [.immediate 4, .immediate Condition.equal.code] },
        { opcode := .jal, operands := [.symbol "callee"] },
        .lowerStack 2,
        loadWord (.use .sp) 4,
        .raiseStack 4, { opcode := .ret }] }]

end MachineCode
