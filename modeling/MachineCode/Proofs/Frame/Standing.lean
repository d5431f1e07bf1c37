import MachineCode.Proofs.Frame.Body
import MachineCode.Proofs.Frame.Lowerable

/-!
# The frame of a running body

While the body of a function runs, its frame stands. A `BodyFrame` says what that means for one
purpose: a property of the state that lasts as long as the save area and the frame pointer are left
alone, and the place of the stack pointer. Lowered code keeps the frame standing, and in a fixed
frame the stack pointer is off by what callees have popped and call sequences have not yet taken
back.
-/

namespace MachineCode

/-- A path ends at a return, so only what holds in front of it matters. -/
theorem Safe.of_return {setting : Setting} {check : Instr → Machine → Prop}
    {outcome : Machine → Prop} {options : Options} {frame : Frame} {keeps : Bool}
    {adjustment last : Int64} {instr : Instr} {items : List Instr} {machine : Machine}
    (isReturn : instr.isReturn = true)
    (lowered : lowerInstr options frame keeps adjustment instr = .done items last)
    (checked : ∀ resolved, resolved.isReturn = true → resolved.isBranch = false →
      check resolved machine) :
    Safe setting check outcome items machine := by
  have returnOnly : instr.isCallPseudo = false ∧ instr.isBranch = false := by
    obtain ⟨opcode, operands⟩ := instr
    cases opcode with
    | ret => exact ⟨rfl, rfl⟩
    | reti => exact ⟨rfl, rfl⟩
    | _ => contradiction
  rcases lowerInstr_eq_done lowered with ⟨isPseudo, -⟩ | ⟨-, resolved, following, rfl, resolves⟩
  · cases returnOnly.1.symm.trans isPseudo
  · refine ⟨checked resolved ?_ ?_, ?_⟩
    · rw [resolves.isReturn_eq, isReturn]
    · rw [resolves.isBranch_eq, returnOnly.2]
    · intro goesOn
      rw [resolves.isReturn_eq, isReturn] at goesOn
      contradiction

/-- A lowered block makes the calls of the original. -/
theorem BlockCode.callCount_eq {options : Options} {frame : Frame} {keeps : Bool}
    {entering exiting instrs items : List Instr}
    (code : BlockCode (lowerInstr options frame keeps) entering exiting instrs items)
    (entryCalls : callCount entering = 0) (exitCalls : callCount exiting = 0) :
    callCount items = callCount instrs := by
  cases code with
  | goesOn noReturn swept =>
      rw [callCount_append, entryCalls, Nat.zero_add, callCount_run swept]
  | returns noReturn isReturn swept returned =>
      simp only [callCount_append, entryCalls, exitCalls, Nat.zero_add, Nat.add_zero,
        callCount_run swept, callCount_lowerInstr returned]

/-- The frame of a running function as its body sees it. -/
structure BodyFrame where
  saveArea : BitVec 16 → Prop
  /-- The stack pointer that the body starts with. -/
  sp : BitVec 16
  /-- Whether objects of variable size move the stack pointer. -/
  hasVarSizedObjects : Bool
  stands : Machine → Prop
  kept : ∀ before after, stands before →
    (∀ address, saveArea address → after.memory address = before.memory address) →
      after.fp = before.fp → stands after

namespace BodyFrame

/-- The setting of code in the body. -/
def setting (frame : BodyFrame) (pops : Nat → BitVec 16) : Setting where
  pops
  saveArea := frame.saveArea

/-- The frame stands, and in a fixed frame callees have popped the given number of bytes. -/
structure InBody (frame : BodyFrame) (level : BitVec 16) (machine : Machine) : Prop where
  stands : frame.stands machine
  sp : frame.hasVarSizedObjects = false → machine.sp = frame.sp + level

/-- What has to hold in front of a branch: it leaves the frame as it is, does not go to the entry
and does not skip bytes. -/
def BranchesInBody (frame : BodyFrame) (instr : Instr) (machine : Machine) : Prop :=
  instr.isBranch = true → instr.operands[0]? ≠ some (.block 0) ∧ instr.isSkip = false ∧
    ∀ pops after, instr.Effect (frame.setting pops) machine after → frame.InBody 0#16 after

/-- The weakest check of a body asks for nothing but the place of its branches. -/
theorem checked_self (frame : BodyFrame) (instr : Instr) (machine : Machine)
    (_ : instr.isReturn = false) (branches : frame.BranchesInBody instr machine) :
    frame.BranchesInBody instr machine :=
  branches

theorem BranchesInBody.isSkip_eq {frame : BodyFrame} {instr : Instr} {machine : Machine}
    (branches : frame.BranchesInBody instr machine) : instr.isSkip = false := by
  cases isBranch : instr.isBranch with
  | false => rw [Instr.isSkip, isBranch, Bool.false_and]
  | true => exact (branches isBranch).2.1

variable {frame : BodyFrame} {pops : Nat → BitVec 16}

/-- An instruction that keeps to its footprint leaves the frame as it is. -/
theorem InBody.step {level : BitVec 16} {instr : Instr} {before after : Machine}
    (inBody : frame.InBody level before)
    (footprint : Footprint (frame.setting pops) instr before after)
    (keepsFp : instr.writes Register.fp.number = false)
    (keepsSp : frame.hasVarSizedObjects = false → instr.writes Register.sp.number = false) :
    frame.InBody (level + instr.popped (frame.setting pops)) after where
  stands := frame.kept before after inBody.stands footprint.saveArea (footprint.fp keepsFp)
  sp := by
    intro fixed
    rw [footprint.sp (keepsSp fixed), inBody.sp fixed, BitVec.add_assoc]

/-- Where objects of variable size move the stack pointer, its level means nothing. -/
theorem InBody.of_dynamic {level other : BitVec 16} {machine : Machine}
    (inBody : frame.InBody level machine)
    (dynamic : frame.hasVarSizedObjects = true) : frame.InBody other machine where
  stands := inBody.stands
  sp := by
    intro fixed
    cases fixed.symm.trans dynamic

theorem InBody.moveStack {level other : BitVec 16} {machine : Machine}
    (inBody : frame.InBody level machine) (status value : BitVec 16)
    (moved : frame.hasVarSizedObjects = false → value = frame.sp + other) :
    frame.InBody other
      ((machine.set Register.sr.number status).set Register.sp.number value) where
  stands := by
    apply frame.kept machine _ inBody.stands
    · intro _ _
      rfl
    · exact (Machine.registers_set_of_ne _ _ (by decide)).trans
        (Machine.registers_set_of_ne _ _ (by decide))
  sp fixed := (Machine.registers_set_self _ _ _).trans (moved fixed)

/-- An instruction that stays in its block, and that leaves the frame and the level alone. -/
structure Harmless (hasVarSizedObjects : Bool) (instr : Instr) : Prop where
  goesOn : instr.isTerminator = false
  noPush : instr.opcode ≠ .push16r
  noPop : instr.opcode ≠ .pop16r
  noCall : instr.opcode ≠ .jal
  keepsFp : instr.writes Register.fp.number = false
  keepsSp : hasVarSizedObjects = false → instr.writes Register.sp.number = false

/-- An offset writes its register and the status register only. -/
theorem writes_adjust (opcode : Opcode) {reg : Reg} (amount : Int64) {number : Fin 16}
    (noStatus : Register.sr.number ≠ number)
    (differs : ∀ register, reg = .physical register → register.number ≠ number) :
    (Instr.adjust opcode reg amount).writes number = false := by
  cases reg with
  | physical register =>
      simp [Instr.writes, Instr.adjust, Operand.defines, Operand.denotes, Operand.deadStatus,
        noStatus, differs register rfl]
  | virtual index =>
      simp [Instr.writes, Instr.adjust, Operand.defines, Operand.denotes, Operand.deadStatus,
        noStatus]

/-- An offset of a register other than the frame pointer is harmless; it may be the stack pointer
only where objects of variable size move that anyway. -/
theorem harmless_adjust {hasVarSizedObjects : Bool} {opcode : Opcode} {reg : Reg} {amount : Int64}
    (isOffset : opcode = .add16ri ∨ opcode = .sub16ri)
    (notFp : ∀ register, reg = .physical register → register.number ≠ Register.fp.number)
    (notSp : hasVarSizedObjects = false → ∀ register, reg = .physical register →
      register.number ≠ Register.sp.number) :
    Harmless hasVarSizedObjects (.adjust opcode reg amount) := by
  have keepsFp : (Instr.adjust opcode reg amount).writes Register.fp.number = false :=
    writes_adjust opcode amount (by decide) notFp
  have keepsSp (fixed : hasVarSizedObjects = false) :
      (Instr.adjust opcode reg amount).writes Register.sp.number = false :=
    writes_adjust opcode amount (by decide) (notSp fixed)
  rcases isOffset with rfl | rfl
  · exact ⟨rfl, nofun, nofun, nofun, keepsFp, keepsSp⟩
  · exact ⟨rfl, nofun, nofun, nofun, keepsFp, keepsSp⟩

theorem harmless_moveStack {opcode : Opcode} (isOffset : opcode = .add16ri ∨ opcode = .sub16ri)
    (amount : Int64) : Harmless true (.adjust opcode (.physical .sp) amount) := by
  apply harmless_adjust isOffset
  · rintro register ⟨⟩
    decide
  · intro fixed
    contradiction

theorem harmless_of_resolves {original resolved : Instr} {following : List Instr}
    {hasVarSizedObjects : Bool} (lowerable : LowerableInstr hasVarSizedObjects original)
    (resolves : Resolves original resolved following) :
    ∀ instr ∈ following, Harmless hasVarSizedObjects instr := by
  intro instr member
  obtain ⟨opcode, reg, amount, isOffset, rfl, written⟩ := resolves.following instr member
  have differs {number : Fin 16} (unwritten : original.writes number = false) (register : Register)
      (regEq : reg = .physical register) : register.number ≠ number := by
    rintro rfl
    cases (written register regEq).symm.trans unwritten
  exact harmless_adjust isOffset (differs lowerable.keepsFp) fun fixed =>
    differs (lowerable.keepsSp fixed)

section

variable {check : Instr → Machine → Prop}
  (checked : ∀ instr machine, instr.isReturn = false → frame.BranchesInBody instr machine →
    check instr machine)

include checked

theorem check_of_not_terminator (instr : Instr) (machine : Machine)
    (goesOn : instr.isTerminator = false) : check instr machine := by
  obtain ⟨noBranch, noReturn⟩ := Bool.or_eq_false_iff.mp goesOn
  apply checked instr machine noReturn
  intro isBranch
  cases noBranch.symm.trans isBranch

theorem safe_harmless {level : BitVec 16} {instrs : List Instr} {machine : Machine}
    (harmless : ∀ instr ∈ instrs, Harmless frame.hasVarSizedObjects instr)
    (inBody : frame.InBody level machine) :
    Safe (frame.setting pops) check (frame.InBody level) instrs machine := by
  induction instrs generalizing machine with
  | nil => exact inBody
  | cons instr rest ih =>
      rw [List.forall_mem_cons] at harmless
      obtain ⟨goesOn, noPush, noPop, noCall, keepsFp, keepsSp⟩ := harmless.1
      refine ⟨check_of_not_terminator checked instr machine goesOn, ?_⟩
      intro _ next effect
      apply ih harmless.2
      have stepped := inBody.step (effect.footprint noPush noPop) keepsFp keepsSp
      rwa [Instr.popped, if_neg noCall, BitVec.add_zero] at stepped

/-- The cleanup of a call takes back what the callee has popped from the reserved space. -/
theorem safe_callCleanup {alignment : UInt64} {level : BitVec 16} {amount popped : Int64}
    {machine : Machine} (inBody : frame.InBody level machine) :
    Safe (frame.setting pops) check (frame.InBody (level + -wordOf popped))
      (callCleanup alignment true amount popped) machine := by
  rw [callCleanup, if_pos rfl]
  split
  next nothing =>
    have nothingPopped : wordOf 0 = 0#16 := wordOf_zero
    rw [nothing, nothingPopped, BitVec.neg_zero, BitVec.add_zero]
    exact inBody
  next =>
    apply Safe.single (check_of_not_terminator checked _ _ rfl)
    intro after effect
    obtain ⟨status, rfl⟩ := effect_lowerStack.mp effect
    apply inBody.moveStack
    intro fixed
    rw [inBody.sp fixed, BitVec.add_assoc]

/-- In a fixed frame, only the end of a call sequence has code, and it takes back what callees
have popped. Otherwise call sequences move the stack pointer, which the frame does not mind. -/
theorem safe_callPseudo {options : Options} {isReserved : Bool} {level : BitVec 16} {instr : Instr}
    {items : List Instr} {machine : Machine}
    (isReservedEq : isReserved = !frame.hasVarSizedObjects)
    (expanded : expandCallPseudo options isReserved instr = .ok items)
    (inBody : frame.InBody level machine) :
    Safe (frame.setting pops) check
      (frame.InBody (level + instr.stackShift (pops 0))) items machine := by
  cases dynamic : frame.hasVarSizedObjects with
  | true =>
      have moves : ∀ item ∈ items, Harmless frame.hasVarSizedObjects item := by
        intro item member
        obtain ⟨opcode, amount, isOffset, rfl⟩ := exists_adjust_of_mem_expansion expanded member
        rw [dynamic]
        exact harmless_moveStack isOffset amount
      apply (safe_harmless checked moves inBody).mono
      intro after inBodyAfter
      exact inBodyAfter.of_dynamic dynamic
  | false =>
      rw [dynamic, Bool.not_false] at isReservedEq
      subst isReservedEq
      rcases expandCallPseudo_eq_ok expanded with
        ⟨down, amount, -, rfl⟩ | ⟨up, amount, popped, amountFound, poppedFound, rfl⟩
      · have noShift : instr.stackShift (pops 0) = 0#16 := by
          simp [Instr.stackShift, down]
        rw [noShift, BitVec.add_zero]
        exact inBody
      · have shiftEq : instr.stackShift (pops 0) = -wordOf popped :=
          stackShift_of_popped up amountFound poppedFound
        rw [shiftEq]
        exact safe_callCleanup checked inBody

theorem safe_resolved {level : BitVec 16} {instr resolved : Instr} {following : List Instr}
    {machine : Machine} (lowerable : LowerableInstr frame.hasVarSizedObjects instr)
    (noSkip : instr.isSkip = false) (noPseudo : instr.isCallPseudo = false)
    (goesOn : instr.isReturn = false) (atBranch : instr.isBranch = true → level = 0#16)
    (resolves : Resolves instr resolved following)
    (inBody : frame.InBody level machine) :
    Safe (frame.setting pops) check
      (frame.InBody (level + instr.stackShift (pops 0))) (resolved :: following) machine := by
  have noPush := resolves.opcode_ne lowerable.noPush nofun
  have noPop := resolves.opcode_ne lowerable.noPop nofun
  have unwritten {number : Fin 16} (kept : instr.writes number = false) :
      resolved.writes number = false := by
    rw [Bool.eq_false_iff] at kept ⊢
    exact fun written => kept (resolves.writes written)
  have steps {pops : Nat → BitVec 16} {after : Machine}
      (effect : resolved.Effect (frame.setting pops) machine after) :
      frame.InBody (level + instr.stackShift (pops 0)) after := by
    have stepped := inBody.step (effect.footprint noPush noPop) (unwritten lowerable.keepsFp)
      fun fixed => unwritten (lowerable.keepsSp fixed)
    rwa [resolves.popped_eq, ← stackShift_of_not_callPseudo noPseudo] at stepped
  constructor
  · apply checked resolved machine (resolves.isReturn_eq.trans goesOn)
    intro isBranch
    rw [resolves.isBranch_eq] at isBranch
    refine ⟨fun toEntry => lowerable.notToEntry isBranch (resolves.branchTarget toEntry),
      resolves.isSkip_eq.trans noSkip, ?_⟩
    intro pops after effect
    have noShift : instr.stackShift (pops 0) = 0#16 :=
      stackShift_of_isTerminator (Bool.or_eq_true_iff.mpr (.inl isBranch))
    have stepped := steps effect
    rwa [atBranch isBranch, noShift] at stepped
  · intro _ next effect
    have noCall : callCount following = callCount [] := resolves.callCount_following
    rw [Setting.before_congr _ noCall] at effect
    exact safe_harmless checked (harmless_of_resolves lowerable resolves) (steps effect)

/-- The code of instructions leaves the frame as it is, up to what callees have popped. -/
theorem safe_prefix {options : Options} {lowered : Frame} {keeps : Bool} {adjustment last : Int64}
    {level : BitVec 16} {instrs rest items : List Instr} {machine : Machine}
    (reserved : lowered.hasReservedCallFrame = !frame.hasVarSizedObjects)
    (lowerable : ∀ instr ∈ instrs, LowerableInstr frame.hasVarSizedObjects instr)
    (noSkip : ∀ instr ∈ instrs, instr.isSkip = false)
    (goesOn : ∀ instr ∈ instrs, instr.isReturn = false)
    (balanced : callsBalanced pops level (instrs ++ rest) = true)
    (swept : Sweep.run (lowerInstr options lowered keeps) adjustment instrs = .done items last)
    (inBody : frame.InBody level machine) :
    Safe ((frame.setting pops).before rest) check
      (frame.InBody (level + callLevel ((frame.setting pops).before rest).pops instrs)) items
      machine := by
  induction instrs generalizing adjustment level items machine with
  | nil =>
      cases swept
      rw [callLevel, BitVec.add_zero]
      exact inBody
  | cons instr others ih =>
      obtain ⟨next, finished, remaining, stepped, othersSwept, rfl⟩ := Sweep.run_cons_eq_done swept
      rw [List.forall_mem_cons] at lowerable noSkip goesOn
      rw [List.cons_append, callsBalanced, Bool.and_eq_true, callCount_append] at balanced
      have atBranch : instr.isBranch = true → level = 0#16 := by
        intro isBranch
        simpa [isBranch] using balanced.1
      have finishedSafe : Safe (((frame.setting pops).before rest).before others) check
          (frame.InBody (level + instr.stackShift (pops (0 + callCount others + callCount rest))))
          finished machine := by
        rcases lowerInstr_eq_done stepped with
          ⟨-, expanded⟩ | ⟨noPseudo, resolved, following, rfl, resolves⟩
        · exact safe_callPseudo checked reserved expanded inBody
        · exact safe_resolved checked lowerable.1 noSkip.1 noPseudo goesOn.1 atBranch resolves
            inBody
      rw [Nat.zero_add, ← Setting.before_congr _ (callCount_run othersSwept)] at finishedSafe
      apply finishedSafe.append
      intro between inBodyBetween
      rw [callLevel, ← BitVec.add_assoc]
      exact ih lowerable.2 noSkip.2 goesOn.2 balanced.2 othersSwept inBodyBetween

/-- At the end of a body, everything that callees have popped has been taken back. -/
theorem safe_body {options : Options} {lowered : Frame} {keeps : Bool} {adjustment last : Int64}
    {level : BitVec 16} {instrs items : List Instr} {machine : Machine}
    (reserved : lowered.hasReservedCallFrame = !frame.hasVarSizedObjects)
    (lowerable : ∀ instr ∈ instrs, LowerableInstr frame.hasVarSizedObjects instr)
    (noSkip : ∀ instr ∈ instrs, instr.isSkip = false)
    (goesOn : ∀ instr ∈ instrs, instr.isReturn = false)
    (balanced : callsBalanced pops level instrs = true)
    (swept : Sweep.run (lowerInstr options lowered keeps) adjustment instrs = .done items last)
    (inBody : frame.InBody level machine) :
    Safe (frame.setting pops) check (frame.InBody 0#16) items machine := by
  rw [← add_callLevel_of_callsBalanced balanced]
  rw [← List.append_nil instrs] at balanced
  exact safe_prefix checked reserved lowerable noSkip goesOn balanced swept inBody

/-- A block is safe if its entry code builds the frame and its exit code may run from it. -/
theorem safe_block {options : Options} {lowered : Frame} {keeps : Bool}
    {entering exiting instrs items : List Instr} {machine : Machine}
    (reserved : lowered.hasReservedCallFrame = !frame.hasVarSizedObjects)
    (lowerable : LowerableBlock pops frame.hasVarSizedObjects instrs)
    (noSkip : ∀ instr ∈ instrs, instr.isSkip = false)
    (code : BlockCode (lowerInstr options lowered keeps) entering exiting instrs items)
    (noCall : callCount exiting = 0)
    (enters : ∀ pops, Safe (frame.setting pops) check (frame.InBody 0#16) entering machine)
    (leaves : ∀ {left : Machine} {returning : Instr} {leaving : List Instr}
      {adjustment last : Int64}, frame.InBody 0#16 left → returning.isReturn = true →
      lowerInstr options lowered keeps adjustment returning = .done leaving last →
        Safe (frame.setting pops) check (frame.InBody 0#16) (exiting ++ leaving) left) :
    Safe (frame.setting pops) check (frame.InBody 0#16) items machine := by
  obtain ⟨each, balanced, -⟩ := lowerable
  cases code with
  | goesOn noReturn swept =>
      refine Safe.append (enters _) ?_
      intro between inBody
      exact safe_body checked reserved each noSkip noReturn balanced swept inBody
  | @returns body code leaving returning _ _ noReturn isReturn swept returned =>
      have leavingCalls : callCount (exiting ++ leaving) = callCount [] := by
        rw [callCount_append, noCall, callCount_lowerInstr returned, Nat.zero_add]
        exact callCount_cons_of_not_isCall (isCall_of_isReturn isReturn) []
      rw [List.append_assoc]
      refine Safe.append (enters _) ?_
      intro between inBody
      have bodySafe : Safe (frame.setting pops) check (frame.InBody 0#16) code between :=
        safe_body checked reserved
          (fun instr member => each instr (List.mem_append_left _ member))
          (fun instr member => noSkip instr (List.mem_append_left _ member)) noReturn
          (callsBalanced_of_return isReturn balanced) swept inBody
      rw [← Setting.before_nil (frame.setting pops), ← Setting.before_congr _ leavingCalls]
        at bodySafe
      apply bodySafe.append
      intro left inBodyLeft
      exact leaves inBodyLeft isReturn returned

end

end BodyFrame

end MachineCode
