import MachineCode.Proofs.Fault
import MachineCode.Proofs.Frame.Outline
import MachineCode.Proofs.Frame.Stages

/-!
# How frame lowering stops

Lowering stops only through faults of the input. What could go wrong otherwise is that a block is
missing or does not end in a return where an epilogue goes. The invariant of the stages is
therefore that the returning blocks exist and still end in their returns (`ReturnsIn`).
-/

namespace MachineCode

/-! ## The returns stay last -/

theorem getLast?_append_of_eq_some {left right : List Instr} {last : Instr}
    (isLast : right.getLast? = some last) : (left ++ right).getLast? = some last := by
  rw [List.getLast?_append, isLast, Option.some_or]

theorem getLast?_withRestores {registers : List Register} {instrs : List Instr} {last : Instr}
    (terminates : last.isTerminator = true) (isLast : instrs.getLast? = some last) :
    (withRestores registers instrs).getLast? = some last := by
  obtain ⟨body, rfl⟩ := List.getLast?_eq_some_iff.mp isLast
  apply getLast?_append_of_eq_some
  rw [List.getLast?_drop, if_neg, isLast]
  rw [List.reverse_append, List.reverse_singleton, List.singleton_append,
    List.takeWhile_cons_of_pos terminates, List.length_append, List.length_singleton,
    List.length_cons]
  omega

theorem getLast?_withPrologue {keeps : Bool} {localArea : UInt64} {instrs : List Instr}
    {last : Instr} (noPush : last.isPush = false) (isLast : instrs.getLast? = some last) :
    (withPrologue keeps localArea instrs).getLast? = some last := by
  obtain ⟨body, rfl⟩ := List.getLast?_eq_some_iff.mp isLast
  apply getLast?_append_of_eq_some
  rw [List.dropWhile_append, List.dropWhile_cons_of_neg (by simp [noPush])]
  split
  · rfl
  · exact List.getLast?_concat ..

theorem getLast?_withEpilogue {keeps : Bool} {releasing instrs : List Instr} {last : Instr}
    (isLast : instrs.getLast? = some last) :
    (withEpilogue keeps releasing instrs).getLast? = some last := by
  apply getLast?_append_of_eq_some
  rw [isLast]
  rfl

/-- Some blocks of a function exist and end in returns. -/
def ReturnsIn (ids : List BlockId) (function : Function) : Prop :=
  ∀ id ∈ ids, ∃ block, function.block? id = some block ∧ block.isReturning = true

/-- A stage that edits the instructions of blocks leaves the blocks in place. -/
theorem exists_block_of_edit {edited : List BlockId} {change : List Instr → List Instr}
    {before after : Function} {id : BlockId} {block : Block}
    (instrs : ∀ id, after.instrs? id =
      (before.instrs? id).map fun instrs => if id ∈ edited then change instrs else instrs)
    (found : before.block? id = some block) :
    ∃ changed, after.block? id = some changed ∧
      changed.instrs = if id ∈ edited then change block.instrs else block.instrs := by
  have instrsEq := instrs id
  rw [Function.instrs?, Function.instrs?, found] at instrsEq
  exact Option.map_eq_some_iff.mp instrsEq

/-- A stage that keeps the last instructions of blocks keeps their returns. -/
theorem ReturnsIn.edit {ids edited : List BlockId} {change : List Instr → List Instr}
    {before after : Function} (returns : ReturnsIn ids before)
    (instrs : ∀ id, after.instrs? id =
      (before.instrs? id).map fun instrs => if id ∈ edited then change instrs else instrs)
    (keepsLast : ∀ instrs last, last.isReturn = true → instrs.getLast? = some last →
      (change instrs).getLast? = some last) : ReturnsIn ids after := by
  intro id member
  obtain ⟨block, found, returning⟩ := returns id member
  obtain ⟨changed, changedFound, changedEq⟩ := exists_block_of_edit instrs found
  refine ⟨changed, changedFound, ?_⟩
  obtain ⟨last, isLast, isReturn⟩ := Block.isReturning_iff.mp returning
  refine Block.isReturning_iff.mpr ⟨last, ?_, isReturn⟩
  rw [changedEq]
  split
  · exact keepsLast block.instrs last isReturn isLast
  · exact isLast

theorem ReturnsIn.emitEpilogue {options : Options} {ids : List BlockId} {id : BlockId}
    {before after : Function} (returns : ReturnsIn ids before)
    (ran : (emitEpilogue options id).run before = .ok () after) : ReturnsIn ids after := by
  have decided : ReturnsIn ids (before.decided options) := returns
  rcases emitEpilogue_outcome options id before with
    ⟨reason, stopped⟩ | ⟨block, localArea, found, -, left⟩
  · cases ran.symm.trans stopped
  · cases ran.symm.trans left
    have edits : Edits [id] (withEpilogue (before.frame.hasFramePointer options)
        (release before.frame.hasVarSizedObjects before.calleeSavedSize localArea))
        (before.decided options) _ := .of_setInstrs found rfl
    exact decided.edit edits.instrs fun _ _ _ => getLast?_withEpilogue

theorem returnsIn_returningBlocks (function : Function) :
    ReturnsIn function.returningBlocks function := by
  intro id member
  obtain ⟨known, returning⟩ := List.mem_filter.mp member
  cases found : function.block? id with
  | none => simp [found] at returning
  | some block => exact ⟨block, rfl, by simpa [found] using returning⟩

theorem isTerminator_of_isReturn {instr : Instr} (isReturn : instr.isReturn = true) :
    instr.isTerminator = true :=
  Bool.or_eq_true_iff.mpr (.inr isReturn)

theorem isPush_of_isReturn {instr : Instr} (isReturn : instr.isReturn = true) :
    instr.isPush = false := by
  rw [Instr.isPush, beq_eq_false_iff_ne]
  intro push
  rw [Instr.isReturn, push] at isReturn
  contradiction

/-! ## Why the stages stop -/

namespace Pass.FaultsOnlyOn

variable {options : Options} {function : Function} {id : BlockId} {block : Block}

theorem readBlock (found : function.block? id = some block) :
    (Pass.block id).FaultsOnlyOn function :=
  of_ok (run_block_of_some found)

theorem addFramePointerSlot : (addFramePointerSlot options).FaultsOnlyOn function :=
  of_ok (run_addFramePointerSlot options function)

theorem saveRegisters (registers : List Register) (found : function.block? id = some block) :
    (saveRegisters id 0 registers).FaultsOnlyOn function := by
  rcases saveRegisters_outcome id 0 registers function with
    ⟨-, ran⟩ | ⟨-, ⟨outside, -⟩ | ⟨_, -, -, ran⟩⟩
  · exact of_ok ran
  · exact absurd (outside block found) (Nat.not_lt_zero _)
  · exact of_ok ran

theorem emitPrologue (found : function.block? 0 = some block) :
    (emitPrologue options 0).FaultsOnlyOn function := by
  have ran := run_emitPrologue options found
  cases area : function.localAreaSize (function.frame.hasFramePointer options) with
  | ok localArea =>
      rw [area] at ran
      exact of_ok ran
  | error reason =>
      rw [area] at ran
      exact of_error ran (FaultsOnly.localAreaSize _ _ reason area)

theorem emitEpilogue (found : function.block? id = some block)
    (returning : block.isReturning = true) : (emitEpilogue options id).FaultsOnlyOn function := by
  have ran := run_emitEpilogue options found returning
  cases area : function.localAreaSize (function.frame.hasFramePointer options) with
  | ok localArea =>
      rw [area] at ran
      exact of_ok ran
  | error reason =>
      rw [area] at ran
      exact of_error ran (FaultsOnly.localAreaSize _ _ reason area)

/-- Registers can be restored in blocks that return. -/
theorem restoreAll {ids : List BlockId} (registers : List Register)
    (returns : ReturnsIn ids function) :
    (ids.forM fun id => restoreBeforeTerminators id registers).FaultsOnlyOn function := by
  refine forM (ReturnsIn ids) returns ?_ ?_
  · intro id _ before after returns ran
    exact returns.edit (restoreBeforeTerminators_run_ok ran).instrs
      fun _ _ isReturn => getLast?_withRestores (isTerminator_of_isReturn isReturn)
  · intro id member before returns
    obtain ⟨block, found, -⟩ := returns id member
    exact of_ok (run_restoreBeforeTerminators found registers)

/-- Epilogues can be inserted into blocks that return, if the frame is large enough. -/
theorem leaveAll {ids : List BlockId} (returns : ReturnsIn ids function) :
    (ids.forM (MachineCode.emitEpilogue options)).FaultsOnlyOn function := by
  refine forM (ReturnsIn ids) returns ?_ ?_
  · intro id _ before after returns ran
    exact returns.emitEpilogue ran
  · intro id member before returns
    obtain ⟨block, found, returning⟩ := returns id member
    exact emitEpilogue found returning

theorem lowerBlocks (frame : Frame) (keeps : Bool) (blocks : List Block) :
    FaultsOnly (Sweep.run (fun _ => lowerBlock options frame keeps) () blocks).outcome := by
  refine FaultsOnly.sweep (fun _ => True) trivial (fun _ _ _ _ _ _ => trivial) ?_
  intro _ _ block _
  refine FaultsOnly.map (FaultsOnly.sweep (fun _ => True) trivial (fun _ _ _ _ _ _ => trivial) ?_) _
  intro adjustment _ instr _
  exact FaultsOnly.lowerInstr options frame keeps adjustment instr

/-- Lowering stops only through faults of the input. -/
theorem lowerFrame (options : Options) (function : Function) :
    (lowerFrame options).FaultsOnlyOn function := by
  refine bind (of_ok rfl) ?_
  rintro keeps _ ⟨⟩
  refine bind addFramePointerSlot ?_
  intro _ slotted slotRan
  obtain ⟨slottedEq, -⟩ := addFramePointerSlot_run_ok rfl slotRan
  refine bind (of_ok rfl) ?_
  rintro _ _ ⟨⟩
  cases entry : slotted.entryBlock? with
  | none => exact of_ok rfl
  | some id =>
      obtain ⟨rfl, first, firstFound⟩ := exists_block_of_entryBlock? entry
      refine bind (discard (saveRegisters _ firstFound)) ?_
      intro _ saved saveRan
      obtain ⟨_, saveRan⟩ := run_discard_eq_ok saveRan
      have saves := saveRegisters_run_ok saveRan
      have savedReturns : ReturnsIn slotted.returningBlocks saved :=
        (returnsIn_returningBlocks slotted).edit saves.instrs
          fun _ _ _ => getLast?_append_of_eq_some
      refine bind (restoreAll slotted.calleeSaved savedReturns) ?_
      intro _ restored restoreRan
      have restores := restoreAll_run_ok (nodup_returningBlocks slotted) (by exact restoreRan)
      have restoredReturns : ReturnsIn slotted.returningBlocks restored :=
        savedReturns.edit restores.instrs
          fun _ _ isReturn => getLast?_withRestores (isTerminator_of_isReturn isReturn)
      obtain ⟨savedFirst, savedFound, -⟩ := exists_block_of_edit saves.instrs firstFound
      obtain ⟨restoredFirst, restoredFound, -⟩ := exists_block_of_edit restores.instrs savedFound
      refine bind (emitPrologue restoredFound) ?_
      intro _ entered prologueRan
      have decided : restored.frame.framePointer? =
          some (function.frame.hasFramePointer options) := by
        rw [restores.frame, saves.frame, slottedEq]
        rfl
      obtain ⟨localArea, -, enters, -, enteredFrame⟩ := emitPrologue_run_ok decided prologueRan
      refine bind (leaveAll (restoredReturns.edit enters
        fun _ _ isReturn => getLast?_withPrologue (isPush_of_isReturn isReturn))) ?_
      intro _ framed epilogueRan
      have outline := Preserves.forM (fun id => Hook.preserves_outline options (.epilogue id))
        slotted.returningBlocks entered (.refl entered)
      rw [leaves_of_ok (by exact epilogueRan)] at outline
      have framedDecided := outline.decision _ (by rw [enteredFrame, decided])
      intro reason stopped failed
      rw [run_visitBlocks_lowerBody options framedDecided] at failed
      exact sweepBlocks (lowerBlocks _ _ _) reason stopped failed

end Pass.FaultsOnlyOn

end MachineCode
