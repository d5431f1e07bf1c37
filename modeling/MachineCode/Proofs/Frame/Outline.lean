import MachineCode.Proofs.Frame.Hooks

/-!
# The outline of a function

Whatever a step of lowering does to the code of a function, some things it leaves alone: the blocks
with their names and their order, the size of the frame, the objects of the frame, and the decision
about the frame pointer once it has been made. This is shown for every step, also for one that
stops, so it holds for every run of calls and for lowering as a whole.
-/

namespace MachineCode

/-- The later function has the blocks of the earlier one, in their order and with their names. Its
frame has the same size, and the same objects with the same indices; fixed objects may have been
added. A decision about the frame pointer stands. -/
structure KeepsOutline (earlier later : Function) : Prop where
  names : later.blocks.map Block.name = earlier.blocks.map Block.name
  stackSize : later.frame.stackSize = earlier.frame.stackSize
  objects : later.frame.objects = earlier.frame.objects
  fixedObjects : earlier.frame.fixedObjects <+: later.frame.fixedObjects
  decision : ∀ keeps, earlier.frame.framePointer? = some keeps →
    later.frame.framePointer? = some keeps

namespace KeepsOutline

variable {earlier later : Function}

theorem refl (function : Function) : KeepsOutline function function where
  names := rfl
  stackSize := rfl
  objects := rfl
  fixedObjects := List.prefix_rfl
  decision _ decided := decided

theorem object? (keeps : KeepsOutline earlier later) {index : FrameIndex} {object : FrameObject}
    (found : earlier.frame.object? index = some object) :
    later.frame.object? index = some object := by
  unfold Frame.object? at found ⊢
  split at found
  next isFixed =>
    obtain ⟨added, fixedEq⟩ := keeps.fixedObjects
    rw [if_pos isFixed, ← fixedEq,
      List.getElem?_append_left (List.getElem?_eq_some_iff.mp found).1]
    exact found
  next noFixed => rwa [if_neg noFixed, keeps.objects]

theorem exists_block (keeps : KeepsOutline earlier later) {id : BlockId} {original : Block}
    (found : earlier.block? id = some original) :
    ∃ block, later.block? id = some block ∧ block.name = original.name := by
  have sameName : later.blocks[id]?.map Block.name = some original.name := by
    rw [← List.getElem?_map, keeps.names, List.getElem?_map]
    exact congrArg _ found
  exact Option.map_eq_some_iff.mp sameName

theorem decided (keeps : KeepsOutline earlier later) (options : Options) :
    KeepsOutline earlier (later.decided options) where
  names := keeps.names
  stackSize := keeps.stackSize
  objects := keeps.objects
  fixedObjects := keeps.fixedObjects
  decision answer answered := by
    have stands := keeps.decision answer answered
    simp [Function.decided, Frame.decideFramePointer, Frame.hasFramePointer, stands]

theorem withBlocks (keeps : KeepsOutline earlier later) {blocks : List Block}
    (sameNames : blocks.map Block.name = later.blocks.map Block.name) :
    KeepsOutline earlier { later with blocks } :=
  { keeps with names := sameNames.trans keeps.names }

end KeepsOutline

/-! ## What the steps change -/

/-- An invariant that survives all elementary changes of the steps, apart from the recorded size of
the saved registers: a decision about the frame pointer, other code and live-ins in the blocks,
other flags and another offset of the frame, and more fixed objects. -/
structure IsStable (invariant : Function → Prop) : Prop where
  decided : ∀ {function : Function} (options : Options), invariant function →
    invariant (function.decided options)
  withBlocks : ∀ {function : Function} {blocks : List Block},
    blocks.map Block.name = function.blocks.map Block.name → invariant function →
    invariant { function with blocks }
  withFlags : ∀ {function : Function} (hasVarSizedObjects isAddressTaken : Bool)
    (offsetAdjustment : Int64), invariant function →
    invariant { function with
      frame := { function.frame with hasVarSizedObjects, isAddressTaken, offsetAdjustment } }
  withFixedObjects : ∀ {function : Function} {fixedObjects : List FrameObject},
    function.frame.fixedObjects <+: fixedObjects → invariant function →
    invariant { function with frame := { function.frame with fixedObjects } }

theorem KeepsOutline.isStable (earlier : Function) : IsStable (KeepsOutline earlier) where
  decided options keeps := keeps.decided options
  withBlocks sameNames keeps := keeps.withBlocks sameNames
  withFlags _ _ _ keeps := { keeps with }
  withFixedObjects longer keeps := { keeps with fixedObjects := keeps.fixedObjects.trans longer }

namespace Pass

namespace Preserves

variable {invariant : Function → Prop} {item state : Type}

theorem forM {body : item → Pass Unit} (each : ∀ head, (body head).Preserves invariant)
    (items : List item) : (items.forM body).Preserves invariant := by
  induction items with
  | nil => exact (Reads.pure ()).preserves
  | cons head rest ih => exact (each head).bind fun _ => ih

theorem walk {id : BlockId} {step : Nat → Instr → state → Pass (Nat × state)}
    (each : ∀ index instr current, (step index instr current).Preserves invariant)
    (limit index : Nat) (current : state) :
    (walk id step limit index current).Preserves invariant := by
  induction limit generalizing index current with
  | zero => exact (Reads.throw _).preserves
  | succ limit ih =>
      refine (Reads.block id).preserves.bind fun block => ?_
      split
      · exact (Reads.pure _).preserves
      · exact (each index _ current).bind fun reached => ih reached.1 reached.2

theorem visitBlocks {visit : BlockId → state → Pass state}
    (each : ∀ id current, (visit id current).Preserves invariant) (initial : state) :
    (visitBlocks visit initial).Preserves invariant := by
  refine Reads.get.preserves.bind fun function => ?_
  induction function.blockIds generalizing initial with
  | nil => exact (Reads.pure _).preserves
  | cons id ids ih =>
      rw [List.foldlM_cons]
      exact (each id initial).bind fun next => ih next

end Preserves

end Pass

theorem names_modify {blocks : List Block} {change : Block → Block}
    (sameName : ∀ block, (change block).name = block.name) (id : BlockId) :
    (blocks.modify id change).map Block.name = blocks.map Block.name := by
  apply List.ext_getElem?
  intro place
  rw [List.getElem?_map, List.getElem?_map, List.getElem?_modify]
  cases blocks[place]? with
  | none => rfl
  | some block =>
      change some _ = some _
      split <;> simp [sameName]

theorem name_foldl_addLiveIn (registers : List Register) (block : Block) :
    (registers.foldl Block.addLiveIn block).name = block.name := by
  induction registers generalizing block with
  | nil => rfl
  | cons register rest ih => exact ih (block.addLiveIn register)

theorem names_receiveFramePointer (blocks : List Block) :
    (blocks.take 1 ++ (blocks.drop 1).map fun block => block.addLiveIn .fp).map Block.name =
      blocks.map Block.name := by
  have sameName : Block.name ∘ (Block.addLiveIn · .fp) = Block.name := rfl
  rw [List.map_append, List.map_map, sameName, ← List.map_append, List.take_append_drop]

/-! ## The steps -/

namespace IsStable

open Pass

variable {invariant : Function → Prop}

theorem modifyBlock (stable : IsStable invariant) {function : Function} (id : BlockId)
    {change : Block → Block} (sameName : ∀ block, (change block).name = block.name)
    (holds : invariant function) : invariant (function.modifyBlock id change) :=
  stable.withBlocks (names_modify sameName id) holds

theorem setInstrs (stable : IsStable invariant) {function : Function} (id : BlockId)
    (instrs : List Instr) (holds : invariant function) :
    invariant (function.modifyBlock id fun same => { same with instrs }) :=
  stable.modifyBlock id (fun _ => rfl) holds

theorem entered (stable : IsStable invariant) {function : Function} (keepsFramePointer : Bool)
    (id : BlockId) (localArea : UInt64) (block : Block) (holds : invariant function) :
    invariant (function.entered keepsFramePointer id localArea block) := by
  have framed := stable.setInstrs id (withPrologue keepsFramePointer localArea block.instrs) holds
  rw [Function.entered]
  split
  · have placed := stable.withFlags function.frame.hasVarSizedObjects
      function.frame.isAddressTaken (-localArea.toInt64) framed
    refine stable.withBlocks ?_ placed
    exact names_receiveFramePointer _
  · exact framed

theorem decideFramePointer (stable : IsStable invariant) (options : Options) :
    (decideFramePointer options).Preserves invariant :=
  fun _ holds => stable.decided options holds

theorem addFramePointerSlot (stable : IsStable invariant) (options : Options) :
    (addFramePointerSlot options).Preserves invariant := by
  intro function holds
  obtain ⟨fixedObjects, longer, left⟩ := addFramePointerSlot_leaves options function
  rw [left]
  exact stable.withFixedObjects longer (stable.decided options holds)

theorem saveRegisters (stable : IsStable invariant)
    (recorded : ∀ (function : Function) (calleeSavedSize : UInt64), invariant function →
      invariant { function with calleeSavedSize })
    (id : BlockId) (index : Nat) (registers : List Register) :
    (saveRegisters id index registers).Preserves invariant := by
  intro function holds
  rcases saveRegisters_outcome id index registers function with
    ⟨-, ran⟩ | ⟨-, ⟨-, reason, stopped⟩ | ⟨block, -, -, ran⟩⟩
  · rwa [leaves_of_ok ran]
  · rw [leaves_of_error stopped]
    exact recorded function _ holds
  · rw [leaves_of_ok ran]
    exact stable.modifyBlock id (name_foldl_addLiveIn registers)
      (stable.setInstrs id _ (recorded function _ holds))

theorem restoreRegisters (stable : IsStable invariant) (id : BlockId) (index : Nat)
    (registers : List Register) :
    (restoreRegisters id index registers).Preserves invariant := by
  intro function holds
  rcases restoreRegisters_outcome id index registers function with
    ⟨-, reason, stopped⟩ | ⟨-, ran⟩ | ⟨block, -, ran⟩
  · rwa [leaves_of_error stopped]
  · rwa [leaves_of_ok ran]
  · rw [leaves_of_ok ran]
    exact stable.setInstrs id _ holds

theorem emitPrologue (stable : IsStable invariant) (options : Options) (id : BlockId) :
    (emitPrologue options id).Preserves invariant := by
  intro function holds
  rcases emitPrologue_outcome options id function with
    ⟨reason, stopped | stopped⟩ | ⟨block, localArea, -, -, ran⟩
  · rwa [leaves_of_error stopped]
  · rw [leaves_of_error stopped]
    exact stable.decided options holds
  · rw [leaves_of_ok ran]
    exact stable.entered _ id localArea block (stable.decided options holds)

theorem emitEpilogue (stable : IsStable invariant) (options : Options) (id : BlockId) :
    (emitEpilogue options id).Preserves invariant := by
  intro function holds
  rcases emitEpilogue_outcome options id function with
    ⟨reason, stopped⟩ | ⟨block, localArea, -, -, ran⟩
  · rw [leaves_of_error stopped]
    exact stable.decided options holds
  · rw [leaves_of_ok ran]
    exact stable.setInstrs id _ (stable.decided options holds)

theorem eliminateCallPseudo (stable : IsStable invariant) (options : Options) (id : BlockId)
    (index : Nat) : (eliminateCallPseudo options id index).Preserves invariant := by
  intro function holds
  rcases eliminateCallPseudo_outcome options id index function with
    ⟨reason, stopped⟩ | ⟨block, instr, expansion, -, -, -, ran⟩
  · rwa [leaves_of_error stopped]
  · rw [leaves_of_ok ran]
    exact stable.setInstrs id _ holds

theorem eliminateSlot (stable : IsStable invariant) (options : Options) (id : BlockId)
    (index position : Nat) (adjustment : Int64) :
    (eliminateSlot options id index position adjustment).Preserves invariant := by
  intro function holds
  rcases eliminateSlot_outcome options id index position adjustment function with
    ⟨reason, stopped | stopped⟩ | ⟨block, instr, resolved, -, -, -, ran⟩
  · rwa [leaves_of_error stopped]
  · rw [leaves_of_error stopped]
    exact stable.decided options holds
  · rw [leaves_of_ok ran]
    exact stable.setInstrs id _ (stable.decided options holds)

/-- Every call preserves a stable invariant; a save needs that the recorded size does not matter. -/
theorem hook (stable : IsStable invariant) (options : Options) (hook : Hook)
    (saves : ∀ id index registers, hook = .save id index registers →
      (MachineCode.saveRegisters id index registers).Preserves invariant) :
    (hook.pass options).Preserves invariant := by
  have asking {result : Type} (answer : Bool → result) :
      (MachineCode.decideFramePointer options >>= fun keeps => Pure.pure (answer keeps)).Preserves
        invariant :=
    (stable.decideFramePointer options).bind fun _ => (Reads.pure _).preserves
  cases hook with
  | setVarSizedObjects => exact .modify fun _ holds => stable.withFlags _ _ _ holds
  | setAddressTaken => exact .modify fun _ holds => stable.withFlags _ _ _ holds
  | readFramePointer => exact (stable.decideFramePointer options).discard
  | readFrameRegister => exact (asking _).discard
  | readReservedRegisters => exact (asking _).discard
  | addFramePointerSlot => exact stable.addFramePointerSlot options
  | save id index registers => exact (saves id index registers rfl).discard
  | restore id index registers => exact (stable.restoreRegisters id index registers).discard
  | prologue id => exact stable.emitPrologue options id
  | epilogue id => exact stable.emitEpilogue options id
  | callPseudo id index => exact (stable.eliminateCallPseudo options id index).discard
  | slot id index position adjustment =>
      exact stable.eliminateSlot options id index position adjustment

end IsStable

/-! ## The outline -/

section

open Pass

variable {earlier : Function}

theorem saveRegisters_preserves (id : BlockId) (index : Nat) (registers : List Register) :
    (saveRegisters id index registers).Preserves (KeepsOutline earlier) :=
  (KeepsOutline.isStable earlier).saveRegisters (fun _ _ keeps => { keeps with }) id index registers

/-- No call changes the outline. -/
theorem Hook.preserves_outline (options : Options) (hook : Hook) :
    (hook.pass options).Preserves (KeepsOutline earlier) :=
  (KeepsOutline.isStable earlier).hook options hook
    fun id index registers _ => saveRegisters_preserves id index registers

/-- What every call preserves, lowering preserves: it changes nothing but through its calls. -/
theorem lowerFrame_preserves_of_hooks {invariant : Function → Prop} {options : Options}
    (call : ∀ hook, (Hook.pass options hook).Preserves invariant) :
    (lowerFrame options).Preserves invariant := by
  refine (Preserves.discard_iff.mp (call .readFramePointer)).bind fun _ => ?_
  refine (call .addFramePointerSlot).bind fun _ => ?_
  refine Reads.get.preserves.bind fun function => ?_
  split
  · exact (Reads.pure _).preserves
  · refine (call (.save _ _ _)).bind fun _ => ?_
    refine Preserves.bind (.forM (fun id => ?_) _) fun _ => ?_
    · refine (Reads.block id).preserves.bind fun _ => ?_
      exact (Reads.ofExcept _).preserves.bind fun _ => call (.restore _ _ _)
    · refine (call (.prologue _)).bind fun _ => ?_
      refine Preserves.bind (.forM (fun id => call (.epilogue id)) _) fun _ => ?_
      refine .visitBlocks (fun id _ => ?_) _
      refine (Reads.block id).preserves.bind fun _ => .discard (.walk (fun _ instr _ => ?_) _ _ _)
      rw [lowerAt]
      split
      · refine (Reads.ofExcept _).preserves.bind fun _ => ?_
        exact (Preserves.discard_iff.mp (call (.callPseudo _ _))).bind fun _ =>
          (Reads.pure _).preserves
      · exact (Preserves.forM (fun _ => call (.slot _ _ _ _)) _).bind fun _ =>
          (Reads.pure _).preserves

/-- Lowering does not change the outline, even if it stops. -/
theorem lowerFrame_preserves (options : Options) :
    (lowerFrame options).Preserves (KeepsOutline earlier) :=
  lowerFrame_preserves_of_hooks (Hook.preserves_outline options)

end

end MachineCode
