import MachineCode.Proofs.Frame.Hooks
import MachineCode.Proofs.Frame.Walk
import Mathlib.Data.List.Nodup

/-!
# The stages of frame lowering

Lowering edits the blocks in stages. It saves registers, restores them, inserts the prologue and
the epilogues, and walks over what it has inserted. For each stage we state what it does to the
instructions of every block. `exists_lowersTo` puts the stages together: a block of the result
is the sweep of the original block inside its frame code, `framedInstrs`.
-/

namespace MachineCode

/-- The instructions of a block. -/
def Function.instrs? (function : Function) (id : BlockId) : Option (List Instr) :=
  (function.block? id).map Block.instrs

/-- A stage changes the instructions of some blocks, and neither the frame nor the size of the
part that holds the preserved registers. -/
structure Edits (ids : List BlockId) (change : List Instr → List Instr)
    (before after : Function) : Prop where
  instrs : ∀ id, after.instrs? id =
    (before.instrs? id).map fun instrs => if id ∈ ids then change instrs else instrs
  frame : after.frame = before.frame
  calleeSavedSize : after.calleeSavedSize = before.calleeSavedSize

namespace Edits

theorem refl (change : List Instr → List Instr) (function : Function) :
    Edits [] change function function where
  instrs id := by simp
  frame := rfl
  calleeSavedSize := rfl

/-- Blocks that are edited one after the other, each once, are all edited. -/
theorem cons {id : BlockId} {ids : List BlockId} {change : List Instr → List Instr}
    {before middle after : Function} (notLater : id ∉ ids) (first : Edits [id] change before middle)
    (rest : Edits ids change middle after) : Edits (id :: ids) change before after where
  instrs other := by
    rw [rest.instrs, first.instrs, Option.map_map]
    congr 1
    funext instrs
    by_cases same : other = id
    · subst same
      simp [notLater]
    · simp [same]
  frame := rest.frame.trans first.frame
  calleeSavedSize := rest.calleeSavedSize.trans first.calleeSavedSize

theorem of_setInstrs {function : Function} {id : BlockId} {block : Block} {new : List Instr}
    {change : List Instr → List Instr} (found : function.block? id = some block)
    (changed : new = change block.instrs) :
    Edits [id] change function
      (function.modifyBlock id fun block => { block with instrs := new }) where
  instrs other := by
    rw [Function.instrs?, Function.instrs?, Function.block?_modifyBlock]
    by_cases same : id = other
    · subst same
      simp [found, changed]
    · simp [same, Ne.symm same, Function.comp_def]
  frame := rfl
  calleeSavedSize := rfl

/-- A loop over distinct blocks edits them all if each round edits its block. The rounds may
rely on the frame and the size, which stay as they are. -/
theorem of_forM {body : BlockId → Pass Unit} {change : List Instr → List Instr}
    {ids : List BlockId} {function final : Function}
    (round : ∀ id before after, before.frame = function.frame →
      before.calleeSavedSize = function.calleeSavedSize →
        (body id).run before = .ok () after → Edits [id] change before after)
    (distinct : ids.Nodup) (ran : (ids.forM body).run function = .ok () final) :
    Edits ids change function final := by
  induction ids generalizing function with
  | nil =>
      cases ran
      exact .refl change final
  | cons id ids ih =>
      have sequence : (body id >>= fun _ => ids.forM body).run function = .ok () final := ran
      obtain ⟨_, middle, firstRan, restRan⟩ := Pass.run_bind_eq_ok sequence
      rw [List.nodup_cons] at distinct
      have first := round id function middle rfl rfl firstRan
      have rest := ih (fun later before after frameEq sizeEq => round later before after
        (frameEq.trans first.frame) (sizeEq.trans first.calleeSavedSize)) distinct.2 restRan
      exact .cons distinct.1 first rest

end Edits

theorem Pass.run_discard_eq_ok {result : Type} {pass : Pass result} {function final : Function}
    (ran : (discard pass : Pass Unit).run function = .ok () final) :
    ∃ value, pass.run function = .ok value final := by
  have sequence : (pass >>= fun _ => pure ()).run function = .ok () final := ran
  obtain ⟨value, _, passRan, returned⟩ := Pass.run_bind_eq_ok sequence
  cases returned
  exact ⟨value, passRan⟩

/-! ## The stages -/

theorem instrs_foldl_addLiveIn (registers : List Register) (block : Block) :
    (registers.foldl Block.addLiveIn block).instrs = block.instrs := by
  induction registers generalizing block with
  | nil => rfl
  | cons register rest ih => exact ih (block.addLiveIn register)

theorem saveRegisters_run_ok {id : BlockId} {registers : List Register} {saved : Bool}
    {function final : Function}
    (ran : (saveRegisters id 0 registers).run function = .ok saved final) :
    Edits [id] (saveInstrs registers ++ ·)
      { function with
        calleeSavedSize :=
          if registers = [] then function.calleeSavedSize else savedSize registers }
      final := by
  rcases saveRegisters_outcome id 0 registers function with
    ⟨rfl, same⟩ | ⟨nonempty, ⟨-, _, stopped⟩ | ⟨block, found, -, inserted⟩⟩
  · cases ran.symm.trans same
    exact { instrs := fun other => by simp [saveInstrs], frame := rfl, calleeSavedSize := rfl }
  · cases ran.symm.trans stopped
  · cases ran.symm.trans inserted
    rw [if_neg nonempty]
    have edits : Edits [id] (saveInstrs registers ++ ·)
        { function with calleeSavedSize := savedSize registers } _ := .of_setInstrs found rfl
    refine ⟨fun other => ?_, rfl, rfl⟩
    rw [Function.instrs?, Function.block?_modifyBlock, Option.map_map]
    have sameInstrs : Block.instrs ∘ (if id = other then
        fun block => registers.foldl Block.addLiveIn block else fun block => block) =
          Block.instrs := by
      funext block
      split
      · exact instrs_foldl_addLiveIn registers block
      · rfl
    rw [sameInstrs]
    exact edits.instrs other

/-- The instructions of a block with registers restored in front of its terminators. -/
def withRestores (registers : List Register) (instrs : List Instr) : List Instr :=
  let index := instrs.length - (instrs.reverse.takeWhile Instr.isTerminator).length
  instrs.take index ++ restoreInstrs registers ++ instrs.drop index

/-- Registers can be restored in every block that is there. -/
theorem run_restoreBeforeTerminators {function : Function} {id : BlockId} {block : Block}
    (found : function.block? id = some block) (registers : List Register) :
    (restoreBeforeTerminators id registers).run function =
      .ok () (function.withInstrs id (withRestores registers block.instrs)) := by
  rw [restoreBeforeTerminators, Pass.run_bind_of_ok (Pass.run_block_of_some found),
    Block.firstTerminator_eq, Pass.run_bind_of_ok (Pass.run_ofExcept_ok ..)]
  change (restoreRegisters id _ registers >>= fun _ => pure () : Pass Unit).run function = _
  rcases restoreRegisters_outcome id
      (block.instrs.length - (block.instrs.reverse.takeWhile Instr.isTerminator).length) registers
      function with
    ⟨outside, -⟩ | ⟨rfl, same⟩ | ⟨block', found', inserted⟩
  · exact absurd (outside block found) (Nat.not_lt.mpr (Nat.sub_le ..))
  · have unchanged : withRestores [] block.instrs = block.instrs := by
      simp [withRestores, restoreInstrs]
    rw [unchanged, Function.withInstrs_self found]
    exact Pass.run_bind_of_ok same _
  · cases found.symm.trans found'
    exact Pass.run_bind_of_ok inserted _

theorem restoreBeforeTerminators_run_ok {id : BlockId} {registers : List Register}
    {function final : Function}
    (ran : (restoreBeforeTerminators id registers).run function = .ok () final) :
    Edits [id] (withRestores registers) function final := by
  obtain ⟨block, _, blockRan, -⟩ := Pass.run_bind_eq_ok ran
  obtain ⟨found, rfl⟩ := Pass.run_block_eq_ok blockRan
  cases ran.symm.trans (run_restoreBeforeTerminators found registers)
  exact .of_setInstrs found rfl

theorem instrs?_mapLiveIn (function : Function) (register : Register) (id : BlockId) :
    { function with
      blocks := function.blocks.take 1 ++
        (function.blocks.drop 1).map fun block : Block => block.addLiveIn register }.instrs? id =
      function.instrs? id := by
  unfold Function.instrs? Function.block?
  cases function.blocks with
  | nil => rfl
  | cons first rest =>
      cases id with
      | zero => rfl
      | succ id =>
          simp only [List.take_succ_cons, List.take_zero, List.drop_succ_cons, List.drop_zero,
            List.singleton_append, List.getElem?_cons_succ, List.getElem?_map, Option.map_map]
          rfl

theorem emitPrologue_run_ok {options : Options} {function final : Function} {keeps : Bool}
    (decided : function.frame.framePointer? = some keeps)
    (ran : (emitPrologue options 0).run function = .ok () final) :
    ∃ localArea, function.localAreaSize keeps = .ok localArea ∧
      (∀ id, final.instrs? id = (function.instrs? id).map fun instrs =>
        if id ∈ [0] then withPrologue keeps localArea instrs else instrs) ∧
      final.calleeSavedSize = function.calleeSavedSize ∧
      final.frame = { function.frame with offsetAdjustment := final.frame.offsetAdjustment } := by
  obtain ⟨keepsEq, same⟩ := Function.decided_of_decided decided options
  rcases emitPrologue_outcome options 0 function with
    ⟨reason, stopped | stopped⟩ | ⟨block, localArea, found, area, entered⟩
  · cases ran.symm.trans stopped
  · cases ran.symm.trans stopped
  · cases ran.symm.trans entered
    rw [keepsEq] at area
    rw [keepsEq, same, Function.entered]
    have edits : Edits [0] (withPrologue keeps localArea) _ _ := .of_setInstrs found rfl
    refine ⟨localArea, area, ?_⟩
    cases keeps with
    | false => exact ⟨edits.instrs, rfl, rfl⟩
    | true =>
        refine ⟨fun id => ?_, rfl, rfl⟩
        rw [← edits.instrs id]
        exact instrs?_mapLiveIn _ .fp id

theorem emitEpilogue_run_ok {options : Options} {id : BlockId} {function final : Function}
    {keeps : Bool} {localArea : UInt64} (decided : function.frame.framePointer? = some keeps)
    (area : function.localAreaSize keeps = .ok localArea)
    (ran : (emitEpilogue options id).run function = .ok () final) :
    Edits [id] (withEpilogue keeps
      (release function.frame.hasVarSizedObjects function.calleeSavedSize localArea))
      function final := by
  obtain ⟨keepsEq, same⟩ := Function.decided_of_decided decided options
  rcases emitEpilogue_outcome options id function with
    ⟨reason, stopped⟩ | ⟨block, foundArea, found, areaEq, left⟩
  · cases ran.symm.trans stopped
  · rw [keepsEq] at areaEq
    cases area.symm.trans areaEq
    cases ran.symm.trans left
    rw [keepsEq, same]
    exact .of_setInstrs found rfl

theorem localAreaSize_congr {left right : Function} (frameEq : left.frame.stackSize =
    right.frame.stackSize) (sizeEq : left.calleeSavedSize = right.calleeSavedSize) (keeps : Bool) :
    left.localAreaSize keeps = right.localAreaSize keeps := by
  rw [Function.localAreaSize, Function.localAreaSize, frameEq, sizeEq]

theorem restoreAll_run_ok {ids : List BlockId} {registers : List Register}
    {function final : Function} (distinct : ids.Nodup)
    (ran : (ids.forM fun id => restoreBeforeTerminators id registers).run function =
      .ok () final) : Edits ids (withRestores registers) function final :=
  .of_forM (fun _ _ _ _ _ => restoreBeforeTerminators_run_ok) distinct ran

theorem emitEpilogues_run_ok {options : Options} {ids : List BlockId} {function final : Function}
    {keeps : Bool} {localArea : UInt64} (distinct : ids.Nodup)
    (decided : function.frame.framePointer? = some keeps)
    (area : function.localAreaSize keeps = .ok localArea)
    (ran : (ids.forM (emitEpilogue options)).run function = .ok () final) :
    Edits ids (withEpilogue keeps
      (release function.frame.hasVarSizedObjects function.calleeSavedSize localArea))
      function final := by
  apply Edits.of_forM _ distinct ran
  intro id before after sameFrame sameSize roundRan
  have edits := emitEpilogue_run_ok (by rw [sameFrame, decided])
    ((localAreaSize_congr (by rw [sameFrame]) sameSize keeps).trans area) roundRan
  rwa [sameFrame, sameSize] at edits

theorem addFramePointerSlot_run_ok {options : Options} {function final : Function} {keeps : Bool}
    (decided : function.frame.framePointer? = some keeps)
    (ran : (addFramePointerSlot options).run function = .ok () final) :
    final = { function with
        frame := { function.frame with fixedObjects := final.frame.fixedObjects } } ∧
      function.frame.fixedObjects <+: final.frame.fixedObjects := by
  obtain ⟨keepsEq, same⟩ := Function.decided_of_decided decided options
  have left := run_addFramePointerSlot options function
  rw [keepsEq, same] at left
  cases ran.symm.trans left
  cases keeps with
  | false => exact ⟨rfl, List.prefix_rfl⟩
  | true => exact ⟨rfl, List.prefix_append _ _⟩

/-! ## All stages -/

theorem nodup_returningBlocks (function : Function) : function.returningBlocks.Nodup :=
  List.nodup_range.filter _

theorem mem_returningBlocks {function : Function} {id : BlockId} {block : Block}
    (found : function.block? id = some block) :
    id ∈ function.returningBlocks ↔ block.isReturning = true := by
  have known : id < function.blocks.length := (List.getElem?_eq_some_iff.mp found).1
  simp [Function.returningBlocks, Function.blockIds, found, known]

/-- The instructions of a block inside the frame code: what the stages make of them before the
sweep. -/
def framedInstrs (keeps : Bool) (registers : List Register) (localArea : UInt64)
    (releasing : List Instr) (isEntry isReturning : Bool) (instrs : List Instr) : List Instr :=
  let saved := if isEntry then saveInstrs registers ++ instrs else instrs
  let restored := if isReturning then withRestores registers saved else saved
  let entered := if isEntry then withPrologue keeps localArea restored else restored
  if isReturning then withEpilogue keeps releasing entered else entered

/-- The sweep over a function lowers every block where it stands. -/
theorem getElem?_run_lowerBlock {options : Options} {frame : Frame} {keeps : Bool}
    {blocks lowered : List Block}
    (ran : Sweep.run (fun _ => lowerBlock options frame keeps) () blocks = .done lowered ())
    (id : BlockId) :
    Option.Rel
      (fun original block => ∃ last,
        Sweep.run (lowerInstr options frame keeps) 0 original.instrs = .done block.instrs last)
      blocks[id]? lowered[id]? := by
  induction blocks generalizing lowered id with
  | nil =>
      cases ran
      exact .none
  | cons original rest ih =>
      obtain ⟨_, finished, remaining, stepped, swept, rfl⟩ := Sweep.run_cons_eq_done ran
      unfold lowerBlock at stepped
      cases bodyRan : Sweep.run (lowerInstr options frame keeps) 0 original.instrs with
      | mk items outcome =>
          cases outcome with
          | error reason =>
              rw [bodyRan] at stepped
              cases stepped
          | ok last =>
              rw [bodyRan] at stepped
              cases stepped
              cases id with
              | zero => exact .some ⟨last, bodyRan⟩
              | succ id => exact ih swept id

/-- The size of the part of the lowered frame that holds the preserved registers. -/
def Function.savedBytes (function : Function) : UInt64 :=
  if function.calleeSaved = [] then function.calleeSavedSize else savedSize function.calleeSaved

/-- Lowering a function that has blocks runs all stages, each on what the one before it has left. -/
theorem exists_stages_of_run_lowerFrame {options : Options} {function lowered : Function}
    (ran : (lowerFrame options).run function = .ok () lowered) (nonempty : function.blocks ≠ []) :
    ∃ (slotted saved restored entered framed : Function) (anySaved : Bool),
      (addFramePointerSlot options).run (function.decided options) = .ok () slotted ∧
      (saveRegisters 0 0 slotted.calleeSaved).run slotted = .ok anySaved saved ∧
      (slotted.returningBlocks.forM fun id =>
        restoreBeforeTerminators id slotted.calleeSaved).run saved = .ok () restored ∧
      (emitPrologue options 0).run restored = .ok () entered ∧
      (slotted.returningBlocks.forM (emitEpilogue options)).run entered = .ok () framed ∧
      (Pass.visitBlocks (fun id _ => lowerBody options id) ()).run framed = .ok () lowered := by
  obtain ⟨_, _, decideRan, afterDecide⟩ := Pass.run_bind_eq_ok ran
  cases decideRan
  obtain ⟨_, slotted, slotRan, afterSlot⟩ := Pass.run_bind_eq_ok afterDecide
  obtain ⟨slottedEq, -⟩ := addFramePointerSlot_run_ok rfl slotRan
  obtain ⟨_, _, got, afterGet⟩ := Pass.run_bind_eq_ok afterSlot
  cases got
  have entryEq : slotted.entryBlock? = some 0 := by
    rw [slottedEq, Function.entryBlock?]
    simp [nonempty]
  rw [entryEq] at afterGet
  obtain ⟨_, saved, discardRan, afterSave⟩ := Pass.run_bind_eq_ok afterGet
  obtain ⟨anySaved, saveRan⟩ := Pass.run_discard_eq_ok discardRan
  obtain ⟨_, restored, restoreRan, afterRestore⟩ := Pass.run_bind_eq_ok afterSave
  obtain ⟨_, entered, prologueRan, afterPrologue⟩ := Pass.run_bind_eq_ok afterRestore
  obtain ⟨_, framed, epilogueRan, visitRan⟩ := Pass.run_bind_eq_ok afterPrologue
  exact ⟨slotted, saved, restored, entered, framed, anySaved, slotRan, saveRan, restoreRan,
    prologueRan, epilogueRan, visitRan⟩

/-- The four stages that insert instructions put a block inside its frame code. -/
theorem instrs?_framed {function saved restored entered framed : Function} {keeps : Bool}
    {registers : List Register} {localArea : UInt64} {releasing : List Instr}
    {returning : List BlockId} (saves : Edits [0] (saveInstrs registers ++ ·) function saved)
    (restores : Edits returning (withRestores registers) saved restored)
    (enters : ∀ id, entered.instrs? id = (restored.instrs? id).map fun instrs =>
      if id ∈ [0] then withPrologue keeps localArea instrs else instrs)
    (leaves : Edits returning (withEpilogue keeps releasing) entered framed) (id : BlockId) :
    framed.instrs? id = (function.instrs? id).map
      (framedInstrs keeps registers localArea releasing (decide (id = 0))
        (decide (id ∈ returning))) := by
  rw [leaves.instrs, enters, restores.instrs, saves.instrs]
  simp only [Option.map_map]
  congr 1
  funext instrs
  simp [framedInstrs]

/-- Lowering sweeps over a function whose blocks are those of the original one inside their frame
code. -/
theorem exists_framed_of_run_lowerFrame {options : Options} {function lowered : Function}
    {keeps : Bool} (ran : (lowerFrame options).run function = .ok () lowered)
    (nonempty : function.blocks ≠ [])
    (keepsEq : function.frame.hasFramePointer options = keeps) :
    ∃ (framed : Function) (localArea : UInt64) (fixedObjects : List FrameObject)
        (offsetAdjustment : Int64),
      { function with calleeSavedSize := function.savedBytes }.localAreaSize keeps =
        .ok localArea ∧
      framed.frame =
        { function.frame with framePointer? := some keeps, fixedObjects, offsetAdjustment } ∧
      function.frame.fixedObjects <+: fixedObjects ∧
      (∀ id, framed.instrs? id = (function.instrs? id).map
        (framedInstrs keeps function.calleeSaved localArea
          (release function.frame.hasVarSizedObjects function.savedBytes localArea)
          (decide (id = 0)) (decide (id ∈ function.returningBlocks)))) ∧
      lowered.frame = framed.frame ∧
      Sweep.run (fun _ => lowerBlock options framed.frame keeps) () framed.blocks =
        .done lowered.blocks () := by
  obtain ⟨slotted, saved, restored, entered, framed, _, slotRan, saveRan, restoreRan, prologueRan,
    epilogueRan, visitRan⟩ := exists_stages_of_run_lowerFrame ran nonempty
  subst keepsEq
  obtain ⟨slottedEq, keepsObjects⟩ := addFramePointerSlot_run_ok rfl slotRan
  have registersEq : slotted.calleeSaved = function.calleeSaved := by rw [slottedEq]; rfl
  have returningEq : slotted.returningBlocks = function.returningBlocks := by rw [slottedEq]; rfl
  have distinct := nodup_returningBlocks function
  rw [registersEq] at saveRan restoreRan
  rw [returningEq] at restoreRan epilogueRan
  have saves := saveRegisters_run_ok saveRan
  have restores := restoreAll_run_ok distinct restoreRan
  have restoredFrame : restored.frame = slotted.frame := restores.frame.trans saves.frame
  have restoredDecided :
      restored.frame.framePointer? = some (function.frame.hasFramePointer options) := by
    rw [restoredFrame, slottedEq]
    rfl
  obtain ⟨localArea, area, enters, enteredSize, enteredFrame⟩ :=
    emitPrologue_run_ok restoredDecided prologueRan
  have sizeEq : entered.calleeSavedSize = function.savedBytes := by
    rw [enteredSize, restores.calleeSavedSize, saves.calleeSavedSize, slottedEq]
    rfl
  have frameEq : entered.frame =
      { function.frame with
        framePointer? := some (function.frame.hasFramePointer options)
        fixedObjects := slotted.frame.fixedObjects
        offsetAdjustment := entered.frame.offsetAdjustment } := by
    rw [enteredFrame, restoredFrame, slottedEq]
    rfl
  have enteredArea :
      entered.localAreaSize (function.frame.hasFramePointer options) = .ok localArea := by
    rw [← area]
    exact localAreaSize_congr (by rw [enteredFrame]) enteredSize _
  have leaves := emitEpilogues_run_ok distinct (by rw [frameEq]) enteredArea epilogueRan
  have releaseEq : release entered.frame.hasVarSizedObjects entered.calleeSavedSize localArea =
      release function.frame.hasVarSizedObjects function.savedBytes localArea := by
    rw [sizeEq, frameEq]
  rw [releaseEq] at leaves
  have framedDecided :
      framed.frame.framePointer? = some (function.frame.hasFramePointer options) := by
    rw [leaves.frame, frameEq]
  rw [run_visitBlocks_lowerBody options framedDecided] at visitRan
  obtain ⟨outcome, loweredEq⟩ := Pass.run_sweepBlocks_eq_ok visitRan
  refine ⟨framed, localArea, slotted.frame.fixedObjects, entered.frame.offsetAdjustment,
    ?_, leaves.frame.trans frameEq, keepsObjects, ?_, by rw [loweredEq], ?_⟩
  · rw [← enteredArea]
    exact localAreaSize_congr (by rw [frameEq]) sizeEq.symm _
  · intro id
    have instrsEq := instrs?_framed saves restores enters leaves id
    rw [slottedEq] at instrsEq
    exact instrsEq
  · rw [loweredEq, Sweep.done, ← outcome]

/-- A block is the sweep of the original block inside its frame code. -/
def LowersBlock (options : Options) (function lowered : Function) (keeps : Bool)
    (localArea : UInt64) (id : BlockId) (original block : Block) : Prop :=
  ∃ last,
    Sweep.run (lowerInstr options lowered.frame keeps) 0
      (framedInstrs keeps function.calleeSaved localArea
        (release function.frame.hasVarSizedObjects function.savedBytes localArea)
        (decide (id = 0)) original.isReturning original.instrs) = .done block.instrs last

/-- What lowering makes of a function: the frame keeps its size and its objects, and every block is
lowered where it stands. -/
structure LowersTo (options : Options) (function lowered : Function) (keeps : Bool)
    (localArea : UInt64) : Prop where
  area : { function with calleeSavedSize := function.savedBytes }.localAreaSize keeps =
    .ok localArea
  frame : lowered.frame =
    { function.frame with
      framePointer? := some keeps
      fixedObjects := lowered.frame.fixedObjects
      offsetAdjustment := lowered.frame.offsetAdjustment }
  fixedObjects : function.frame.fixedObjects <+: lowered.frame.fixedObjects
  blocks : ∀ id, Option.Rel (LowersBlock options function lowered keeps localArea id)
    (function.block? id) (lowered.block? id)

theorem exists_lowersTo {options : Options} {function lowered : Function} {keeps : Bool}
    (ran : (lowerFrame options).run function = .ok () lowered)
    (nonempty : function.blocks ≠ [])
    (keepsEq : function.frame.hasFramePointer options = keeps) :
    ∃ localArea, LowersTo options function lowered keeps localArea := by
  obtain ⟨framed, localArea, fixedObjects, offsetAdjustment, area, frameEq, keepsObjects, instrsEq,
    loweredFrame, swept⟩ := exists_framed_of_run_lowerFrame ran nonempty keepsEq
  have loweredEq := loweredFrame.trans frameEq
  refine ⟨localArea, area, ?_, ?_, ?_⟩
  · rw [loweredEq]
  · rw [loweredEq]
    exact keepsObjects
  · intro id
    have framedInstrsEq := instrsEq id
    rw [Function.instrs?, Function.instrs?, Option.map_map] at framedInstrsEq
    have blockSwept := getElem?_run_lowerBlock swept id
    change Option.Rel _ (framed.block? id) (lowered.block? id) at blockSwept
    generalize lowered.block? id = found at blockSwept
    cases originalFound : function.block? id with
    | none =>
        rw [originalFound, Option.map_none, Option.map_eq_none_iff] at framedInstrsEq
        rw [framedInstrsEq] at blockSwept
        cases blockSwept
        exact .none
    | some original =>
        rw [originalFound, Option.map_some, Option.map_eq_some_iff] at framedInstrsEq
        obtain ⟨between, betweenFound, betweenEq⟩ := framedInstrsEq
        rw [betweenFound] at blockSwept
        obtain ⟨last, betweenSwept⟩ := blockSwept
        refine .some ⟨last, ?_⟩
        have returningEq : decide (id ∈ function.returningBlocks) = original.isReturning := by
          rw [Bool.eq_iff_iff, decide_eq_true_eq, mem_returningBlocks originalFound]
        rw [betweenEq, Function.comp_apply, returningEq, ← loweredFrame] at betweenSwept
        exact betweenSwept

theorem LowersTo.reserved {options : Options} {function lowered : Function} {keeps : Bool}
    {localArea : UInt64} (lowers : LowersTo options function lowered keeps localArea) :
    lowered.frame.hasReservedCallFrame = !function.frame.hasVarSizedObjects := by
  rw [lowers.frame]
  rfl

theorem LowersTo.exists_block {options : Options} {function lowered : Function} {keeps : Bool}
    {localArea : UInt64} {id : BlockId} {original : Block}
    (lowers : LowersTo options function lowered keeps localArea)
    (found : function.block? id = some original) :
    ∃ block, lowered.block? id = some block ∧
      LowersBlock options function lowered keeps localArea id original block := by
  have lowersBlock := lowers.blocks id
  rw [found] at lowersBlock
  generalize lowered.block? id = loweredBlock at lowersBlock
  cases lowersBlock with
  | some lowersTo => exact ⟨_, rfl, lowersTo⟩

theorem LowersTo.exists_original {options : Options} {function lowered : Function} {keeps : Bool}
    {localArea : UInt64} {id : BlockId} {block : Block}
    (lowers : LowersTo options function lowered keeps localArea)
    (found : lowered.block? id = some block) :
    ∃ original, function.block? id = some original ∧
      LowersBlock options function lowered keeps localArea id original block := by
  have lowersBlock := lowers.blocks id
  rw [found] at lowersBlock
  generalize function.block? id = originalBlock at lowersBlock
  cases lowersBlock with
  | some lowersTo => exact ⟨_, rfl, lowersTo⟩

theorem blocks_of_run_lowerFrame_nil {options : Options} {function lowered : Function}
    (ran : (lowerFrame options).run function = .ok () lowered)
    (empty : function.blocks = []) : lowered.blocks = [] := by
  obtain ⟨_, _, decideRan, afterDecide⟩ := Pass.run_bind_eq_ok ran
  cases decideRan
  obtain ⟨_, slotted, slotRan, afterSlot⟩ := Pass.run_bind_eq_ok afterDecide
  obtain ⟨slottedEq, -⟩ := addFramePointerSlot_run_ok rfl slotRan
  obtain ⟨_, _, got, afterGet⟩ := Pass.run_bind_eq_ok afterSlot
  cases got
  have slottedEmpty : slotted.blocks = [] := by rw [slottedEq, empty]
  have noEntry : slotted.entryBlock? = none := by
    rw [Function.entryBlock?, slottedEmpty]
    rfl
  rw [noEntry] at afterGet
  cases afterGet
  exact slottedEmpty

end MachineCode
