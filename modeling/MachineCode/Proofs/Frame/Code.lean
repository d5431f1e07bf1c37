import MachineCode.Frame.Lowering
import MachineCode.Proofs.Checked
import MachineCode.Proofs.Editing

/-!
# Frame code

The steps of lowering scan a block for the places of their edits and edit it by position. Here we
describe, as functions on lists of instructions, what each step makes of a block. Then we show that
the steps do just that. In particular no edit of a step is out of range, and no check that a step
makes after its first edit fails.
-/

namespace MachineCode

/-! ## Entering a function -/

/-- The instructions that save the caller's frame pointer and set the function's own. -/
def framePointerSetup : List Instr :=
  [.push .fp, .copy .fp .sp]

def allocation (localArea : UInt64) : List Instr :=
  if localArea = 0 then [] else [.lowerStack localArea.toInt64]

/-- The entry block with its prologue: the local area is allocated behind the pushes that
start the block. -/
def withPrologue (keepsFramePointer : Bool) (localArea : UInt64) (instrs : List Instr) :
    List Instr :=
  (if keepsFramePointer then framePointerSetup else []) ++
    instrs.takeWhile Instr.isPush ++ allocation localArea ++ instrs.dropWhile Instr.isPush

/-- The function once it is known whether it keeps a frame pointer. -/
def Function.decided (function : Function) (options : Options) : Function :=
  { function with frame := function.frame.decideFramePointer options }

theorem run_decideFramePointer_bind {result : Type} (options : Options) (function : Function)
    (rest : Bool → Pass result) :
    (decideFramePointer options >>= rest).run function =
      (rest (function.frame.hasFramePointer options)).run (function.decided options) := rfl

/-- Once it is given, the answer is repeated. -/
theorem run_decideFramePointer_of_decided {function : Function} {keeps : Bool}
    (decided : function.frame.framePointer? = some keeps) (options : Options) :
    (decideFramePointer options).run function = .ok keeps function := by
  have keepsEq : function.frame.hasFramePointer options = keeps := by
    rw [Frame.hasFramePointer, decided, Option.getD_some]
  have frameEq : function.frame.decideFramePointer options = function.frame := by
    rw [Frame.decideFramePointer, keepsEq, ← decided]
  rw [run_decideFramePointer, keepsEq, frameEq]

theorem Function.decided_of_decided {function : Function} {keeps : Bool}
    (decided : function.frame.framePointer? = some keeps) (options : Options) :
    function.frame.hasFramePointer options = keeps ∧ function.decided options = function := by
  have ran := run_decideFramePointer_of_decided decided options
  rw [run_decideFramePointer] at ran
  injection ran with keepsEq same
  exact ⟨keepsEq, same⟩

/-- A function with a frame pointer, which its blocks receive from the entry. -/
def Function.withFramePointer (function : Function) (localArea : UInt64) : Function :=
  { function with
    frame := { function.frame with offsetAdjustment := -localArea.toInt64 }
    blocks := function.blocks.take 1 ++
      (function.blocks.drop 1).map fun block => block.addLiveIn .fp }

/-- A function whose entry block has its prologue. With a frame pointer, the other blocks receive
it. -/
def Function.entered (function : Function) (keepsFramePointer : Bool) (id : BlockId)
    (localArea : UInt64) (block : Block) : Function :=
  let framed := function.modifyBlock id fun same =>
    { same with instrs := withPrologue keepsFramePointer localArea block.instrs }
  if keepsFramePointer then framed.withFramePointer localArea else framed

theorem Function.withFramePointer_withInstrs (function : Function) (localArea : UInt64)
    (instrs : List Instr) :
    (function.withInstrs 0 instrs).withFramePointer localArea =
      (function.withFramePointer localArea).withInstrs 0 instrs := by
  cases blocksEq : function.blocks <;>
    simp [withFramePointer, withInstrs, modifyBlock, blocksEq]

section

variable {function : Function} {id : BlockId} {block : Block}

theorem Function.exists_blocks_eq_cons (found : function.block? 0 = some block) :
    ∃ rest, function.blocks = block :: rest := by
  cases blocksEq : function.blocks with
  | nil => simp [block?, blocksEq] at found
  | cons first rest => exact ⟨rest, by simpa [block?, blocksEq] using found⟩

theorem Function.block?_withFramePointer (found : function.block? 0 = some block)
    (localArea : UInt64) : (function.withFramePointer localArea).block? 0 = some block := by
  obtain ⟨rest, blocksEq⟩ := exists_blocks_eq_cons found
  simp [withFramePointer, block?, blocksEq]

theorem run_setUpFramePointer (found : function.block? 0 = some block) (localArea : UInt64) :
    (setUpFramePointer 0 localArea).run function =
      .ok () ((function.withFramePointer localArea).withInstrs 0
        (framePointerSetup ++ block.instrs)) := by
  let placed : Function :=
    { function with frame := { function.frame with offsetAdjustment := -localArea.toInt64 } }
  have placedFound : placed.block? 0 = some block := found
  have pushed := Pass.run_insertInstructions placedFound [] block.instrs [.push .fp]
  have copied := Pass.run_insertInstructions placedFound [.push .fp] block.instrs [.copy .fp .sp]
  obtain ⟨rest, blocksEq⟩ := Function.exists_blocks_eq_cons found
  have received := Pass.run_forM_addLiveIn .fp
    [{ block with instrs := framePointerSetup ++ block.instrs }] rest placed
  have others : (List.range (rest.length + 1)).drop 1 = List.range' 1 rest.length := by
    rw [List.range_eq_range', List.range'_succ, List.drop_one, List.tail_cons]
  have start : placed.withInstrs 0 (framePointerSetup ++ block.instrs) =
      { placed with
        blocks := [{ block with instrs := framePointerSetup ++ block.instrs }] ++ rest } := by
    simp [placed, Function.withInstrs, Function.modifyBlock, blocksEq]
  have finish : (function.withFramePointer localArea).withInstrs 0
      (framePointerSetup ++ block.instrs) =
        { placed with
          blocks := [{ block with instrs := framePointerSetup ++ block.instrs }] ++
            rest.map fun other => other.addLiveIn .fp } := by
    simp [placed, Function.withFramePointer, Function.withInstrs, Function.modifyBlock, blocksEq]
  rw [List.nil_append, Function.withInstrs_self placedFound] at pushed
  refine (Pass.run_bind_of_ok (EStateM.run_modify ..) _).trans ?_
  refine (Pass.run_bind_of_ok pushed _).trans ?_
  refine (Pass.run_bind_of_ok copied _).trans ?_
  refine (Pass.run_bind_of_ok (EStateM.run_get ..) _).trans ?_
  rw [Function.blockIds, Function.length_blocks_withInstrs, blocksEq, List.length_cons, others]
  exact (congrArg _ start).trans (received.trans (congrArg _ finish.symm))

theorem run_allocateLocalArea (found : function.block? id = some block)
    (setup instrs : List Instr) (localArea : UInt64) :
    (allocateLocalArea id setup.length localArea).run (function.withInstrs id (setup ++ instrs)) =
      .ok () (function.withInstrs id (setup ++ instrs.takeWhile Instr.isPush ++
        allocation localArea ++ instrs.dropWhile Instr.isPush)) := by
  have ahead : (setup ++ instrs).length - setup.length = instrs.length := by simp
  have cut : setup ++ instrs =
      (setup ++ instrs.takeWhile Instr.isPush) ++ instrs.dropWhile Instr.isPush := by
    rw [List.append_assoc, List.takeWhile_append_dropWhile]
  rw [allocateLocalArea, Pass.run_bind_of_ok (Pass.run_block_withInstrs found _)]
  dsimp only
  rw [ahead, rowEnd_append, Pass.run_bind_of_ok (Pass.run_ofExcept_ok ..), allocation]
  by_cases empty : localArea = 0
  · rw [if_neg (not_not_intro empty), if_pos empty, List.append_nil, ← cut]
    rfl
  · rw [if_pos empty, if_neg empty, Instr.makeAdjust_eq,
      Pass.run_bind_of_ok (Pass.run_ofExcept_ok ..), ← List.length_append, cut,
      Pass.run_insertInstructions found, List.append_assoc _ [_]]
    rfl

/-- The prologue of a function with blocks stops only if the frame is too small. -/
theorem run_emitPrologue (options : Options) (found : function.block? 0 = some block) :
    (emitPrologue options 0).run function =
      match function.localAreaSize (function.frame.hasFramePointer options) with
      | .ok localArea => .ok () ((function.decided options).entered
          (function.frame.hasFramePointer options) 0 localArea block)
      | .error reason => .error reason (function.decided options) := by
  have decidedFound : (function.decided options).block? 0 = some block := found
  have entry : function.entryBlock? = some 0 := by
    have inside := (List.getElem?_eq_some_iff.mp found).1
    simp [Function.entryBlock?, List.ne_nil_of_length_pos inside]
  refine (Pass.run_bind_of_ok (EStateM.run_get ..) _).trans ?_
  rw [entry]
  change (decideFramePointer options >>= _).run function = _
  rw [run_decideFramePointer_bind]
  refine (Pass.run_bind_of_ok (EStateM.run_get ..) _).trans ?_
  change (Pass.ofExcept (function.localAreaSize _) >>= _).run _ = _
  cases area : function.localAreaSize (function.frame.hasFramePointer options) with
  | error reason => rfl
  | ok localArea =>
      refine (Pass.run_bind_of_ok (Pass.run_ofExcept_ok ..) _).trans ?_
      cases function.frame.hasFramePointer options with
      | false =>
          have allocated := run_allocateLocalArea decidedFound [] block.instrs localArea
          rw [List.nil_append, Function.withInstrs_self decidedFound] at allocated
          exact allocated
      | true =>
          have framed := Function.block?_withFramePointer decidedFound localArea
          refine (Pass.run_bind_of_ok (run_setUpFramePointer decidedFound localArea) _).trans ?_
          refine (run_allocateLocalArea framed framePointerSetup block.instrs localArea).trans ?_
          exact congrArg _ (Function.withFramePointer_withInstrs ..).symm

end

/-! ## Leaving a function -/

/-- The instructions that release a local area. Where objects of variable size lie below it,
the stack pointer is taken from the frame pointer. -/
def release (hasVarSizedObjects : Bool) (calleeSavedSize localArea : UInt64) : List Instr :=
  if hasVarSizedObjects then
    .copy .sp .fp ::
      (if calleeSavedSize = 0 then [] else [.lowerStack calleeSavedSize.toInt64])
  else if localArea = 0 then
    []
  else
    [.raiseStack localArea.toInt64]

/-- A returning block with its epilogue: the local area is released in front of the pops and
terminators that end the block, and the frame pointer is restored right before the return. -/
def withEpilogue (keepsFramePointer : Bool) (releasing : List Instr) (instrs : List Instr) :
    List Instr :=
  let beforeReturn := instrs.dropLast ++ (if keepsFramePointer then [Instr.pop .fp] else [])
  let tail := (beforeReturn.reverse.takeWhile Instr.isPopOrTerminator).reverse
  let body := (beforeReturn.reverse.dropWhile Instr.isPopOrTerminator).reverse
  body ++ releasing ++ tail ++ instrs.getLast?.toList

section

variable {function : Function} {id : BlockId} {block : Block}

theorem run_releaseLocalArea (found : function.block? id = some block)
    (before after : List Instr) (hasVarSizedObjects : Bool) (calleeSavedSize localArea : UInt64) :
    (releaseLocalArea id before.length hasVarSizedObjects calleeSavedSize localArea).run
        (function.withInstrs id (before ++ after)) =
      .ok () (function.withInstrs id
        ((before.reverse.dropWhile Instr.isPopOrTerminator).reverse ++
          release hasVarSizedObjects calleeSavedSize localArea ++
          (before.reverse.takeWhile Instr.isPopOrTerminator).reverse ++ after)) := by
  have scanned : rowStart Instr.isPopOrTerminator (before ++ after) before.length =
      .ok (before.reverse.dropWhile Instr.isPopOrTerminator).reverse.length := by
    rw [List.length_reverse]
    exact rowStart_append ..
  have cut : before = (before.reverse.dropWhile Instr.isPopOrTerminator).reverse ++
      (before.reverse.takeWhile Instr.isPopOrTerminator).reverse := by
    rw [← List.reverse_append, List.takeWhile_append_dropWhile, List.reverse_reverse]
  rw [releaseLocalArea, Pass.run_bind_of_ok (Pass.run_block_withInstrs found _)]
  dsimp only
  rw [scanned, Pass.run_bind_of_ok (Pass.run_ofExcept_ok ..)]
  generalize (before.reverse.dropWhile Instr.isPopOrTerminator).reverse = front at cut
  generalize (before.reverse.takeWhile Instr.isPopOrTerminator).reverse = row at cut
  subst cut
  have inserted := Pass.run_insertInstructions found front (row ++ after)
  simp only [release, List.append_assoc]
  cases hasVarSizedObjects with
  | true =>
      refine (Pass.run_bind_of_ok (inserted [.copy .sp .fp]) _).trans ?_
      by_cases empty : calleeSavedSize = 0
      · rw [if_neg (not_not_intro empty), if_pos empty]
        rfl
      · have lowered := Pass.run_insertInstructions found (front ++ [.copy .sp .fp]) (row ++ after)
          [.lowerStack calleeSavedSize.toInt64]
        rw [List.append_assoc, List.append_assoc, List.length_append] at lowered
        rw [if_pos empty, if_neg empty]
        exact lowered
  | false =>
      rw [if_neg Bool.false_ne_true, if_neg Bool.false_ne_true]
      by_cases empty : localArea = 0
      · rw [if_neg (not_not_intro empty), if_pos empty]
        rfl
      · rw [if_pos empty, if_neg empty]
        exact inserted [.raiseStack localArea.toInt64]

theorem Block.isReturning_iff :
    block.isReturning = true ↔
      ∃ last, block.instrs.getLast? = some last ∧ last.isReturn = true := by
  rw [isReturning, last?]
  cases block.instrs.getLast? <;> simp

/-- The epilogue of a returning block stops only if the frame is too small. -/
theorem run_emitEpilogue (options : Options) (found : function.block? id = some block)
    (returning : block.isReturning = true) :
    (emitEpilogue options id).run function =
      match function.localAreaSize (function.frame.hasFramePointer options) with
      | .ok localArea => .ok ()
          ((function.decided options).modifyBlock id fun same =>
            { same with
              instrs := withEpilogue (function.frame.hasFramePointer options)
                (release function.frame.hasVarSizedObjects function.calleeSavedSize localArea)
                block.instrs })
      | .error reason => .error reason (function.decided options) := by
  have decidedFound : (function.decided options).block? id = some block := found
  obtain ⟨last, isLast, -⟩ := Block.isReturning_iff.mp returning
  obtain ⟨body, instrsEq⟩ := List.getLast?_eq_some_iff.mp isLast
  rw [emitEpilogue, run_decideFramePointer_bind]
  refine (Pass.run_bind_of_ok (EStateM.run_get ..) _).trans ?_
  refine (Pass.run_bind_of_ok (Pass.run_block_of_some decidedFound) _).trans ?_
  rw [if_pos returning]
  change (Pass.ofExcept (function.localAreaSize _) >>= _).run _ = _
  cases area : function.localAreaSize (function.frame.hasFramePointer options) with
  | error reason => rfl
  | ok localArea =>
      refine (Pass.run_bind_of_ok (Pass.run_ofExcept_ok ..) _).trans ?_
      rw [instrsEq, lastPosition_append]
      refine (Pass.run_bind_of_ok (Pass.run_ofExcept_ok ..) _).trans ?_
      have start : function.decided options =
          (function.decided options).withInstrs id (body ++ [last]) := by
        rw [← instrsEq, Function.withInstrs_self decidedFound]
      dsimp only
      rw [withEpilogue, List.dropLast_concat, List.getLast?_concat]
      cases function.frame.hasFramePointer options with
      | false =>
          have released := run_releaseLocalArea decidedFound body [last]
          rw [← start] at released
          simp only [Bool.false_eq_true, if_false, List.append_nil]
          exact released ..
      | true =>
          have popped := Pass.run_insertInstructions decidedFound body [last] [.pop .fp]
          have released := run_releaseLocalArea decidedFound (body ++ [.pop .fp]) [last]
          rw [List.append_assoc, List.length_append] at released
          rw [← start] at popped
          exact (Pass.run_bind_of_ok popped _).trans (released ..)

end

/-! ## Slots -/

/-- The instructions that add a displacement to a register. -/
def addDisplacement (reg : Reg) (displacement : Int64) : List Instr :=
  if displacement = 0 then
    []
  else if displacement < 0 then
    [.adjust .sub16ri reg displacement.abs]
  else
    [.adjust .add16ri reg displacement.abs]

/-- An instruction after one of its slots has been resolved, and the instructions that have to
follow it. -/
structure ResolvedSlot where
  instr : Instr
  following : List Instr := []
  deriving DecidableEq, Repr

/-- Resolve the slot that an instruction has at an operand position. -/
def resolveSlot (frame : Frame) (keepsFramePointer : Bool) (instr : Instr) (position : Nat) :
    Except CodeError ResolvedSlot := do
  let displacement ← frame.slotDisplacement keepsFramePointer instr position
  let base := Operand.use (frameRegister keepsFramePointer)
  if instr.opcode = .add16ri then
    let target ← instr.registerOperand 0
    .ok {
      instr := {
        opcode := .mov16rr
        operands := (instr.operands.set position base).take (position + 1) }
      following := addDisplacement target displacement }
  else
    .ok {
      instr := { instr with
        operands :=
          (instr.operands.set position base).set (position + 1) (.immediate displacement) } }

/-- A slot is a frame index at its operand position, with an addend behind it. -/
theorem Frame.slotDisplacement_eq_ok {frame : Frame} {keeps : Bool} {instr : Instr}
    {position : Nat} {displacement : Int64}
    (found : frame.slotDisplacement keeps instr position = .ok displacement) :
    ∃ index addend object, instr.operands[position]? = some (.frameIndex index) ∧
      instr.operands[position + 1]? = some (.immediate addend) ∧
      frame.object index = .ok object ∧ displacement = frame.displacement keeps object addend := by
  obtain ⟨operand, read, found⟩ := exists_of_bind_eq_ok found
  cases operand with
  | frameIndex index =>
      obtain ⟨addend, addendRead, found⟩ := exists_of_bind_eq_ok found
      obtain ⟨object, objectFound, found⟩ := exists_of_bind_eq_ok found
      cases found
      exact ⟨index, addend, object, Instr.operand_eq_ok read,
        Instr.immediateOperand_eq_ok addendRead, objectFound, rfl⟩
  | _ => contradiction

/-- What resolving a slot does: the base register and the displacement take its place, and taking
its address becomes a copy of the base register and an offset. -/
theorem resolveSlot_eq_ok {frame : Frame} {keeps : Bool} {instr : Instr} {position : Nat}
    {resolved : ResolvedSlot} (ran : resolveSlot frame keeps instr position = .ok resolved) :
    ∃ index addend object,
      instr.operands[position]? = some (.frameIndex index) ∧
      instr.operands[position + 1]? = some (.immediate addend) ∧
      frame.object index = .ok object ∧
      ((∃ target flags, instr.opcode = .add16ri ∧
          instr.operands[0]? = some (.register target flags) ∧
          resolved =
            { instr :=
                { opcode := .mov16rr
                  operands := (instr.operands.set position
                    (.use (frameRegister keeps))).take (position + 1) }
              following := addDisplacement target (frame.displacement keeps object addend) }) ∨
        instr.opcode ≠ .add16ri ∧
          resolved =
            { instr :=
                { instr with
                  operands := (instr.operands.set position (.use (frameRegister keeps))).set
                    (position + 1) (.immediate (frame.displacement keeps object addend)) } }) := by
  obtain ⟨_, slot, ran⟩ := exists_of_bind_eq_ok ran
  obtain ⟨index, addend, object, indexFound, addendFound, objectFound, rfl⟩ :=
    Frame.slotDisplacement_eq_ok slot
  refine ⟨index, addend, object, indexFound, addendFound, objectFound, ?_⟩
  dsimp only at ran
  split at ran
  next sum =>
    obtain ⟨target, targetRead, ran⟩ := exists_of_bind_eq_ok ran
    obtain ⟨flags, targetFound⟩ := Instr.registerOperand_eq_ok targetRead
    cases ran
    exact .inl ⟨target, flags, sum, targetFound, rfl⟩
  next noSum =>
    cases ran
    exact .inr ⟨noSum, rfl⟩

theorem exists_adjust_of_mem_addDisplacement {reg : Reg} {displacement : Int64} {instr : Instr}
    (member : instr ∈ addDisplacement reg displacement) :
    ∃ opcode amount, (opcode = .add16ri ∨ opcode = .sub16ri) ∧
      instr = .adjust opcode reg amount := by
  unfold addDisplacement at member
  split at member
  · contradiction
  · split at member
    · exact ⟨_, _, .inr rfl, List.mem_singleton.mp member⟩
    · exact ⟨_, _, .inl rfl, List.mem_singleton.mp member⟩

theorem length_addDisplacement_le (reg : Reg) (displacement : Int64) :
    (addDisplacement reg displacement).length ≤ 1 := by
  unfold addDisplacement
  split
  · exact Nat.zero_le 1
  · split <;> exact Nat.le_refl 1

theorem Instr.setOperand_eq {instr : Instr} {index : Nat} (inside : index < instr.operands.length)
    (operand : Operand) :
    instr.setOperand index operand =
      .ok { instr with operands := instr.operands.set index operand } := by
  simp [setOperand, Instr.operand, List.getElem?_eq_getElem inside, bind, Except.bind]

section

variable {function : Function} {id : BlockId} {block : Block}

theorem run_resolveAddress (found : function.block? id = some block) (front back : List Instr)
    {instr : Instr} {position : Nat} (inside : position < instr.operands.length) (base : Operand)
    (target : Reg) (displacement : Int64) :
    (resolveAddress id front.length position base target displacement).run
        (function.withInstrs id (front ++ instr :: back)) =
      .ok () (function.withInstrs id (front ++
        { opcode := .mov16rr
          operands := (instr.operands.set position base).take (position + 1) } ::
          (addDisplacement target displacement ++ back))) := by
  refine (Pass.run_bind_of_ok (Pass.run_editInstruction found (by rfl) front back) _).trans ?_
  refine (Pass.run_bind_of_ok (Pass.run_editInstruction found
    (Instr.setOperand_eq (by exact inside) base) front back) _).trans ?_
  refine (Pass.run_bind_of_ok (Pass.run_editInstruction found (by rfl) front back) _).trans ?_
  generalize ({ opcode := .mov16rr, operands := _ } : Instr) = copy
  have inserted := Pass.run_insertInstructions found (front ++ [copy]) back
  simp only [List.append_assoc, List.singleton_append, List.length_append,
    List.length_singleton] at inserted
  rw [addDisplacement]
  by_cases none : displacement = 0
  · rw [if_neg (not_not_intro none), if_pos none]
    rfl
  · rw [if_pos none, if_neg none]
    split
    · exact inserted _
    · exact inserted _

theorem run_resolveAccess (found : function.block? id = some block) (front back : List Instr)
    {instr : Instr} {position : Nat} (inside : position + 1 < instr.operands.length)
    (base : Operand) (displacement : Int64) :
    (resolveAccess id front.length position base displacement).run
        (function.withInstrs id (front ++ instr :: back)) =
      .ok () (function.withInstrs id (front ++
        { instr with
          operands := (instr.operands.set position base).set (position + 1)
            (.immediate displacement) } :: back)) := by
  refine (Pass.run_bind_of_ok (Pass.run_editInstruction found
    (Instr.setOperand_eq (Nat.lt_of_succ_lt inside) base) front back) _).trans ?_
  exact Pass.run_editInstruction found (Instr.setOperand_eq (by simpa using inside) _) front back

theorem run_eliminateSlot_of_moved {adjustment : Int64} (moved : adjustment ≠ 0) (options : Options)
    (id : BlockId) (index position : Nat) (function : Function) :
    (eliminateSlot options id index position adjustment).run function =
      .error (.unexpectedSpAdjustment adjustment) function := by
  rw [eliminateSlot, if_pos moved]
  rfl

/-- A slot is resolved in place, unless it cannot be resolved at all. -/
theorem run_eliminateSlot (options : Options) (found : function.block? id = some block)
    (front : List Instr) (instr : Instr) (back : List Instr) (position : Nat) :
    (eliminateSlot options id front.length position 0).run
        (function.withInstrs id (front ++ instr :: back)) =
      match resolveSlot (function.decided options).frame
        (function.frame.hasFramePointer options) instr position with
      | .ok resolved => .ok () ((function.decided options).withInstrs id
          (front ++ resolved.instr :: (resolved.following ++ back)))
      | .error reason => .error reason ((function.decided options).withInstrs id
          (front ++ instr :: back)) := by
  have decidedFound : (function.decided options).block? id = some block := found
  rw [eliminateSlot, if_neg (not_not_intro rfl), run_decideFramePointer_bind]
  refine (Pass.run_bind_of_ok
    (Pass.run_instruction_withInstrs decidedFound front instr back) _).trans ?_
  refine (Pass.run_bind_of_ok (EStateM.run_get ..) _).trans ?_
  rw [resolveSlot]
  change (Pass.ofExcept ((function.decided options).frame.slotDisplacement
    (function.frame.hasFramePointer options) instr position) >>= _).run _ = _
  cases slot : (function.decided options).frame.slotDisplacement
    (function.frame.hasFramePointer options) instr position with
  | error reason => rfl
  | ok displacement =>
      obtain ⟨_, addend, _, -, behind, -, -⟩ := Frame.slotDisplacement_eq_ok slot
      have inside := (List.getElem?_eq_some_iff.mp behind).1
      refine (Pass.run_bind_of_ok (Pass.run_ofExcept_ok ..) _).trans ?_
      simp only [bind, Except.bind]
      by_cases sum : instr.opcode = .add16ri
      · rw [if_pos sum, if_pos sum]
        cases instr.registerOperand 0 with
        | error reason => rfl
        | ok target =>
            exact run_resolveAddress decidedFound front back (Nat.lt_of_succ_lt inside) ..
      · rw [if_neg sum, if_neg sum]
        exact run_resolveAccess decidedFound front back inside ..

/-- A call sequence pseudo is replaced, unless it is malformed. -/
theorem run_eliminateCallPseudo (options : Options) (found : function.block? id = some block)
    (front : List Instr) (instr : Instr) (back : List Instr) :
    (eliminateCallPseudo options id front.length).run
        (function.withInstrs id (front ++ instr :: back)) =
      match expandCallPseudo options function.frame.hasReservedCallFrame instr with
      | .ok expansion => .ok (front.length + expansion.length)
          (function.withInstrs id (front ++ (expansion ++ back)))
      | .error reason => .error reason (function.withInstrs id (front ++ instr :: back)) := by
  refine (Pass.run_bind_of_ok (Pass.run_instruction_withInstrs found front instr back) _).trans ?_
  refine (Pass.run_bind_of_ok (EStateM.run_get ..) _).trans ?_
  change (Pass.ofExcept (expandCallPseudo options function.frame.hasReservedCallFrame instr) >>=
    _).run _ = _
  cases expandCallPseudo options function.frame.hasReservedCallFrame instr with
  | error reason => rfl
  | ok expansion =>
      have inserted := Pass.run_insertInstructions found front (instr :: back) expansion
      have removed := Pass.run_replaceInstruction found (front ++ expansion) instr back []
      rw [List.append_assoc, List.append_assoc, List.length_append] at removed
      refine (Pass.run_bind_of_ok (Pass.run_ofExcept_ok ..) _).trans ?_
      refine (Pass.run_bind_of_ok inserted _).trans ?_
      exact Pass.run_bind_of_ok removed _

end

end MachineCode
