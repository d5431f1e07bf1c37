import MachineCode.Proofs.Frame.Body
import MachineCode.Proofs.Frame.Outline
import MachineCode.Proofs.Frame.Stages
import Mathlib.Data.List.DropRight

/-!
# The decision about the frame pointer

Whether a function keeps a frame pointer is decided by whichever call asks first, from flags that
may change later. All later calls go by the decision and not by the flags, so in every run of calls
the decision stays, and a function that keeps no frame pointer gets no code that uses one
(`framePointer_settled`).
-/

namespace MachineCode

/-- It has been decided whether the function keeps a frame pointer. -/
def Decides (decision : Bool) (function : Function) : Prop :=
  function.frame.framePointer? = some decision

/-- No call takes the decision back. -/
theorem Hook.preserves_decides {decision : Bool} (options : Options) (hook : Hook) :
    (hook.pass options).Preserves (Decides decision) := by
  intro function decides
  have outline : KeepsOutline function ((hook.pass options).leaves function) :=
    hook.preserves_outline options function (.refl function)
  exact outline.decision decision decides

/-! ## Code that spares the frame pointer -/

/-- Whether the operand names the frame pointer, at either width. -/
def Operand.namesFramePointer : Operand → Bool
  | .register (.physical named) _ => named.number == Register.fp.number
  | _ => false

/-- Whether an operand of the instruction names the frame pointer. -/
def Instr.namesFramePointer (instr : Instr) : Bool :=
  instr.operands.any Operand.namesFramePointer

/-- Operands that name the frame pointer are what they were in the same places. -/
def Instr.NamesNoMore (old new : Instr) : Prop :=
  ∀ (position : Nat) (operand : Operand), new.operands[position]? = some operand →
    operand.namesFramePointer = true → old.operands[position]? = some operand

/-- An instruction that adds an offset to the register in which a sum is wanted. -/
def Instr.IsOffsetOf (sum offset : Instr) : Prop :=
  sum.opcode = .add16ri ∧ ∃ opcode target flags amount,
    sum.operands[0]? = some (.register target flags) ∧ offset = .adjust opcode target amount

/-- Code that has been changed without bringing in the frame pointer: instructions have been
inserted that do not name it, and no operand has been rewritten to it. What may follow a rewritten
instruction all the same is exempt. -/
inductive Spares (exempt : Instr → Instr → Prop) : List Instr → List Instr → Prop where
  | nil : Spares exempt [] []
  | insert {instr : Instr} {old new : List Instr} (free : instr.namesFramePointer = false)
      (rest : Spares exempt old new) : Spares exempt old (instr :: new)
  | rewrite {instr rewritten : Instr} {following old new : List Instr}
      (noMore : instr.NamesNoMore rewritten)
      (offsets : ∀ offset ∈ following, offset.namesFramePointer = true → exempt instr offset)
      (rest : Spares exempt old new) : Spares exempt (instr :: old) (rewritten :: following ++ new)

namespace Spares

variable {exempt : Instr → Instr → Prop} {old new added : List Instr}

theorem inserted (free : ∀ instr ∈ added, instr.namesFramePointer = false)
    (rest : Spares exempt old new) : Spares exempt old (added ++ new) := by
  induction added with
  | nil => exact rest
  | cons instr added ih =>
      rw [List.forall_mem_cons] at free
      exact .insert free.1 (ih free.2)

theorem kept (front : List Instr) (rest : Spares exempt old new) :
    Spares exempt (front ++ old) (front ++ new) := by
  induction front with
  | nil => exact rest
  | cons instr front ih =>
      have same : Spares exempt (instr :: (front ++ old)) (instr :: [] ++ (front ++ new)) :=
        .rewrite (fun _ _ found _ => found) (by simp) ih
      exact same

theorem refl (instrs : List Instr) : Spares exempt instrs instrs := by
  simpa using kept instrs (@nil exempt)

end Spares

/-- Every block of a function has been changed without bringing in the frame pointer. -/
def Function.Spares (exempt : Instr → Instr → Prop) (before after : Function) : Prop :=
  ∀ id, Option.Rel (MachineCode.Spares exempt) (before.instrs? id) (after.instrs? id)

theorem Function.Spares.refl (exempt : Instr → Instr → Prop) (function : Function) :
    function.Spares exempt function := by
  intro id
  cases function.instrs? id with
  | none => exact .none
  | some instrs => exact .some (.refl instrs)

theorem Function.Spares.decided (exempt : Instr → Instr → Prop) (function : Function)
    (options : Options) : function.Spares exempt (function.decided options) :=
  Function.Spares.refl exempt function

theorem Function.Spares.of_modifyBlock {exempt : Instr → Instr → Prop} {function : Function}
    {options : Options} {id : BlockId} {block : Block} {new : List Instr}
    (found : function.block? id = some block)
    (spares : MachineCode.Spares exempt block.instrs new) :
    function.Spares exempt
      ((function.decided options).modifyBlock id fun same => { same with instrs := new }) := by
  intro other
  have edits : Edits [id] (fun _ => new) (function.decided options) _ := .of_setInstrs found rfl
  rw [edits.instrs]
  by_cases same : other = id
  · subst same
    have instrsEq : function.instrs? other = some block.instrs := by
      rw [Function.instrs?, found]
      rfl
    change Option.Rel _ (function.instrs? other) ((function.instrs? other).map _)
    rw [instrsEq]
    simpa using spares
  · simp only [List.mem_singleton, same, if_false, Option.map_id']
    exact Function.Spares.refl exempt function other

/-- The number of operands that name the frame pointer. -/
def framePointerCount (instrs : List Instr) : Nat :=
  (instrs.flatMap Instr.operands).countP Operand.namesFramePointer

theorem framePointerCount_append (left right : List Instr) :
    framePointerCount (left ++ right) = framePointerCount left + framePointerCount right := by
  rw [framePointerCount, List.flatMap_append, List.countP_append]
  rfl

theorem framePointerCount_of_free {instrs : List Instr}
    (free : ∀ instr ∈ instrs, instr.namesFramePointer = false) : framePointerCount instrs = 0 := by
  rw [framePointerCount, List.countP_eq_zero]
  intro operand member
  obtain ⟨instr, isInstr, isOperand⟩ := List.mem_flatMap.mp member
  exact List.any_eq_false.mp (free instr isInstr) operand isOperand

theorem countP_le_of_getElem? {old new : List Operand}
    (noMore : ∀ (position : Nat) (operand : Operand), new[position]? = some operand →
      operand.namesFramePointer = true → old[position]? = some operand) :
    new.countP Operand.namesFramePointer ≤ old.countP Operand.namesFramePointer := by
  induction new generalizing old with
  | nil => exact Nat.zero_le _
  | cons operand new ih =>
      have rest : new.countP Operand.namesFramePointer ≤
          old.tail.countP Operand.namesFramePointer := by
        refine ih fun position other found names => ?_
        rw [List.getElem?_tail]
        exact noMore (position + 1) other found names
      cases names : operand.namesFramePointer with
      | false =>
          rw [List.countP_cons_of_neg (by simp [names])]
          exact rest.trans (List.tail_sublist old).countP_le
      | true =>
          have head := noMore 0 operand rfl names
          cases old with
          | nil => contradiction
          | cons first old =>
              cases head
              rw [List.countP_cons_of_pos names, List.countP_cons_of_pos names]
              exact Nat.succ_le_succ rest

/-- Code that spares the frame pointer without exemption does not name it more often. -/
theorem Spares.framePointerCount_le {old new : List Instr}
    (spares : Spares (fun _ _ => False) old new) :
    framePointerCount new ≤ framePointerCount old := by
  induction spares with
  | nil => exact Nat.le_refl _
  | insert free rest ih =>
      rw [← List.singleton_append, framePointerCount_append,
        framePointerCount_of_free (by simpa using free), Nat.zero_add]
      exact ih
  | @rewrite instr rewritten following old new noMore offsets rest ih =>
      have offsetsFree : framePointerCount following = 0 := by
        refine framePointerCount_of_free fun offset member => ?_
        by_contra names
        exact offsets offset member (eq_true_of_ne_false names)
      have headLe : framePointerCount [rewritten] ≤ framePointerCount [instr] := by
        simpa [framePointerCount] using countP_le_of_getElem? noMore
      calc framePointerCount ([rewritten] ++ following ++ new)
        _ = framePointerCount [rewritten] + framePointerCount new := by
            rw [framePointerCount_append, framePointerCount_append, offsetsFree, Nat.add_zero]
        _ ≤ framePointerCount [instr] + framePointerCount old := Nat.add_le_add headLe ih
        _ = framePointerCount ([instr] ++ old) := (framePointerCount_append _ _).symm

theorem Function.Spares.framePointerCount_le {before after : Function}
    {old new : List Instr} (spares : before.Spares (fun _ _ => False) after) (id : BlockId)
    (oldFound : before.instrs? id = some old) (newFound : after.instrs? id = some new) :
    framePointerCount new ≤ framePointerCount old := by
  have block := spares id
  rw [oldFound, newFound] at block
  cases block with
  | some sparesBlock => exact sparesBlock.framePointerCount_le

/-- A frame without a frame pointer is entered by moving the stack pointer. -/
theorem spares_withPrologue (exempt : Instr → Instr → Prop) (localArea : UInt64)
    (instrs : List Instr) : Spares exempt instrs (withPrologue false localArea instrs) := by
  have free : ∀ instr ∈ allocation localArea, instr.namesFramePointer = false := by
    intro instr member
    rw [allocation] at member
    split at member
    · contradiction
    · rw [List.mem_singleton.mp member]
      rfl
  have spares : Spares exempt (instrs.takeWhile Instr.isPush ++ instrs.dropWhile Instr.isPush)
      (instrs.takeWhile Instr.isPush ++
        (allocation localArea ++ instrs.dropWhile Instr.isPush)) :=
    .kept _ (.inserted free (.refl _))
  rw [List.takeWhile_append_dropWhile] at spares
  rw [withPrologue]
  simpa using spares

/-- A frame without a frame pointer and without objects of variable size is left by moving the
stack pointer. -/
theorem spares_withEpilogue (exempt : Instr → Instr → Prop) (calleeSavedSize localArea : UInt64)
    (instrs : List Instr) :
    Spares exempt instrs
      (withEpilogue false (release false calleeSavedSize localArea) instrs) := by
  have free : ∀ instr ∈ release false calleeSavedSize localArea,
      instr.namesFramePointer = false := by
    intro instr member
    rw [release, if_neg Bool.false_ne_true] at member
    split at member
    · contradiction
    · rw [List.mem_singleton.mp member]
      rfl
  have front := @List.rdropWhile_append_rtakeWhile _ Instr.isPopOrTerminator instrs.dropLast
  have whole : instrs.dropLast ++ instrs.getLast?.toList = instrs := by
    cases last : instrs.getLast? with
    | none => simp [List.getLast?_eq_none_iff.mp last]
    | some final => exact List.dropLast_append_getLast? final last
  have spares : Spares exempt
      (instrs.dropLast.rdropWhile Instr.isPopOrTerminator ++
        (instrs.dropLast.rtakeWhile Instr.isPopOrTerminator ++ instrs.getLast?.toList))
      (instrs.dropLast.rdropWhile Instr.isPopOrTerminator ++
        (release false calleeSavedSize localArea ++
          (instrs.dropLast.rtakeWhile Instr.isPopOrTerminator ++ instrs.getLast?.toList))) :=
    .kept _ (.inserted free (.refl _))
  rw [← List.append_assoc, front, whole] at spares
  rw [withEpilogue]
  simpa [List.rdropWhile, List.rtakeWhile] using spares

/-- Without a frame pointer, a slot is addressed from the stack pointer. The frame pointer can only
come in where it is itself the register that is to hold the address of the slot. -/
theorem spares_resolveSlot {frame : Frame} {instr : Instr} {position : Nat}
    {resolved : ResolvedSlot} (ran : resolveSlot frame false instr position = .ok resolved) :
    instr.NamesNoMore resolved.instr ∧
      ∀ offset ∈ resolved.following, offset.namesFramePointer = true → instr.IsOffsetOf offset := by
  obtain ⟨index, addend, object, -, -, -, forms⟩ := resolveSlot_eq_ok ran
  have unchanged {operands : List Operand} {place other : Nat} {replaced operand : Operand}
      (free : replaced.namesFramePointer = false)
      (found : (operands.set place replaced)[other]? = some operand)
      (names : operand.namesFramePointer = true) : operands[other]? = some operand := by
    rw [List.getElem?_set] at found
    split at found
    · split at found
      · cases found
        rw [free] at names
        contradiction
      · contradiction
    · exact found
  rcases forms with ⟨target, flags, sum, targetFound, rfl⟩ | ⟨-, rfl⟩
  · constructor
    · intro other operand found names
      rw [List.getElem?_take] at found
      split at found
      · exact unchanged (by rfl) found names
      · contradiction
    · intro offset member _
      obtain ⟨opcode, amount, -, rfl⟩ := exists_adjust_of_mem_addDisplacement member
      exact ⟨sum, opcode, target, flags, amount, targetFound, rfl⟩
  · constructor
    · intro other operand found names
      exact unchanged (by rfl) (unchanged (by rfl) found names) names
    · intro offset member
      contradiction

/-! ## Calls on a function without a frame pointer -/

section

variable {options : Options} {function : Function} {exempt : Instr → Instr → Prop}

theorem hasFramePointer_of_decided {left : Function}
    (decided : left.frame.framePointer? = (function.decided options).frame.framePointer?)
    (unkept : ¬Decides true left) : function.frame.hasFramePointer options = false := by
  by_contra keeps
  rw [Bool.not_eq_false] at keeps
  refine unkept (decided.trans ?_)
  rw [← keeps]
  rfl

theorem spares_emitPrologue {id : BlockId}
    (unkept : ¬Decides true ((emitPrologue options id).leaves function)) :
    function.Spares exempt ((emitPrologue options id).leaves function) := by
  rcases emitPrologue_outcome options id function with
    ⟨reason, stopped | stopped⟩ | ⟨block, localArea, found, -, entered⟩
  · rw [Pass.leaves_of_error stopped]
    exact .refl exempt function
  · rw [Pass.leaves_of_error stopped]
    exact .decided exempt function options
  · rw [Pass.leaves_of_ok entered] at unkept ⊢
    have keepsEq : function.frame.hasFramePointer options = false := by
      refine hasFramePointer_of_decided ?_ unkept
      rw [Function.entered]
      split
      · rfl
      · rfl
    rw [keepsEq]
    exact .of_modifyBlock found (spares_withPrologue exempt localArea _)

theorem spares_emitEpilogue {id : BlockId} (fixedSize : function.frame.hasVarSizedObjects = false)
    (unkept : ¬Decides true ((emitEpilogue options id).leaves function)) :
    function.Spares exempt ((emitEpilogue options id).leaves function) := by
  rcases emitEpilogue_outcome options id function with
    ⟨reason, stopped⟩ | ⟨block, localArea, found, -, left⟩
  · rw [Pass.leaves_of_error stopped]
    exact .decided exempt function options
  · rw [Pass.leaves_of_ok left] at unkept ⊢
    rw [hasFramePointer_of_decided rfl unkept, fixedSize]
    exact .of_modifyBlock found (spares_withEpilogue exempt _ localArea _)

theorem spares_eliminateSlot {id : BlockId} {index position : Nat} {adjustment : Int64}
    (unkept : ¬Decides true
      ((eliminateSlot options id index position adjustment).leaves function)) :
    function.Spares Instr.IsOffsetOf
      ((eliminateSlot options id index position adjustment).leaves function) := by
  rcases eliminateSlot_outcome options id index position adjustment function with
    ⟨reason, stopped | stopped⟩ | ⟨block, instr, resolved, found, present, slotRan, replaced⟩
  · rw [Pass.leaves_of_error stopped]
    exact .refl _ function
  · rw [Pass.leaves_of_error stopped]
    exact .decided _ function options
  · rw [Pass.leaves_of_ok replaced] at unkept ⊢
    rw [hasFramePointer_of_decided rfl unkept] at slotRan
    obtain ⟨noMore, offsets⟩ := spares_resolveSlot slotRan
    refine .of_modifyBlock found ?_
    have whole : block.instrs.take index ++ instr :: block.instrs.drop (index + 1) =
        block.instrs := by
      obtain ⟨bound, rfl⟩ := List.getElem?_eq_some_iff.mp present
      rw [← List.drop_eq_getElem_cons bound, List.take_append_drop]
    have spares := Spares.kept (block.instrs.take index)
      (.rewrite noMore offsets (.refl (block.instrs.drop (index + 1))))
    rw [whole, ← List.append_assoc] at spares
    exact spares

end

/-- What the calls that insert or rewrite code do to a function without a frame pointer. Nothing is
said about an epilogue for objects of variable size. -/
def HookCall.Spares (call : HookCall) (function : Function) : Prop :=
  match call.hook with
  | .prologue _ => function.Spares (fun _ _ => False) (call.leaves function)
  | .epilogue _ =>
      function.frame.hasVarSizedObjects = false →
        function.Spares (fun _ _ => False) (call.leaves function)
  | .slot .. => function.Spares Instr.IsOffsetOf (call.leaves function)
  | _ => True

/-- A call spares the frame pointer unless the function keeps one. -/
theorem HookCall.spares {call : HookCall} {function : Function}
    (unkept : ¬Decides true (call.leaves function)) : call.Spares function := by
  obtain ⟨options, hook⟩ := call
  cases hook with
  | prologue id => exact spares_emitPrologue unkept
  | epilogue id => exact fun fixedSize => spares_emitEpilogue fixedSize unkept
  | slot id index position adjustment => exact spares_eliminateSlot unkept
  | _ => trivial

/-! ## Runs -/

/-- However calls follow each other, a decision about the frame pointer settles what all calls
answer. Without a frame pointer, entering and leaving a function and resolving its slots bring none
into its code, except for the offset of an address that the function itself wants in the frame
pointer. -/
theorem framePointer_settled {function : Function} {earlier : List HookCall} {decision : Bool}
    (decides : Decides decision (function.after earlier)) (later : List HookCall) :
    Decides decision (function.after (earlier ++ later)) ∧
      (∀ options,
        (decideFramePointer options).run (function.after (earlier ++ later)) =
          .ok decision (function.after (earlier ++ later))) ∧
      (∀ options, ∃ register,
        (readFrameRegister options).run (function.after (earlier ++ later)) =
            .ok register (function.after (earlier ++ later)) ∧
          (register = .fp ↔ decision = true)) ∧
      (∀ options, ∃ reserved,
        (readReservedRegisters options).run (function.after (earlier ++ later)) =
            .ok reserved (function.after (earlier ++ later)) ∧
          reserved.contains .fp = decision ∧
          reserved.contains Register.fp.byteAlias = decision) ∧
      (decision = false → ∀ before call after, earlier ++ later = before ++ call :: after →
        call.Spares (function.after before)) := by
  have settled : Decides decision (function.after (earlier ++ later)) := by
    rw [Function.after_append]
    exact Function.after_preserves Hook.preserves_decides decides later
  have answers := run_decideFramePointer_of_decided settled
  refine ⟨settled, answers, fun options => ?_, fun options => ?_, ?_⟩
  · refine ⟨frameRegister decision, ?_, by cases decision <;> decide⟩
    rw [readFrameRegister, EStateM.run_bind, answers]
    rfl
  · refine ⟨reservedRegisters decision, ?_, by cases decision <;> decide,
      by cases decision <;> decide⟩
    rw [readReservedRegisters, EStateM.run_bind, answers]
    rfl
  · rintro rfl before call after split
    refine HookCall.spares fun kept => ?_
    have keptAtEnd : Decides true (function.after (earlier ++ later)) := by
      rw [split, Function.after_append, Function.after_cons]
      exact Function.after_preserves Hook.preserves_decides kept after
    rw [Decides, settled] at keptAtEnd
    contradiction

/-- A function that wants the address of a frame slot in the frame pointer. -/
def materializing : Function where
  name := "materializing"
  frame := { objects := [{ size := 2, offset := -6 }] }
  blocks := [
    { name := "start"
      instrs := [
        { opcode := .add16ri, operands := [.define .fp, .frameIndex 0, .immediate 6] },
        { opcode := .ret }] }]

/-- The first call, which decides that the function above keeps no frame pointer. -/
def materializingDecision : List HookCall :=
  [{ hook := .readFramePointer }]

theorem decides_materializing : Decides false (materializing.after materializingDecision) :=
  rfl

theorem framePointer_settled_materializing :
    Decides false (materializing.after materializingDecision) ∧
      Decides false (materializing.after (materializingDecision ++
        [{ hook := .setAddressTaken true }, { hook := .prologue 0 }])) ∧
      (materializing.after materializingDecision).Spares Instr.IsOffsetOf
        (materializing.after (materializingDecision ++ [{ hook := .slot 0 0 1 0 }])) :=
  ⟨decides_materializing, (framePointer_settled decides_materializing _).1,
    (framePointer_settled decides_materializing [{ hook := .slot 0 0 1 0 }]).2.2.2.2 rfl
      materializingDecision _ [] rfl⟩

/-- Resolving a slot brings in the frame pointer where the function wants the address there, and so
does an epilogue once objects of variable size have been announced too late. -/
theorem framePointer_inserted_materializing :
    Decides false (materializing.after materializingDecision) ∧
      ¬(materializing.after materializingDecision).Spares (fun _ _ => False)
        (materializing.after (materializingDecision ++ [{ hook := .slot 0 0 1 0 }])) ∧
      ¬(materializing.after
          (materializingDecision ++ [{ hook := .setVarSizedObjects true }])).Spares
        (fun _ _ => False)
        (materializing.after (materializingDecision ++
          [{ hook := .setVarSizedObjects true }, { hook := .epilogue 0 }])) := by
  refine ⟨decides_materializing, fun spares => ?_, fun spares => ?_⟩
  · have more := spares.framePointerCount_le 0 rfl rfl
    revert more
    decide +kernel
  · have more := spares.framePointerCount_le 0 rfl rfl
    revert more
    decide +kernel

end MachineCode
