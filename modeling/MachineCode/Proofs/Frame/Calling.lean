import MachineCode.Proofs.Frame.Saving

/-!
# Entering and leaving a function

Entry code builds the frame from any state, and exit code takes it down again from wherever the
body has left the stack pointer: where the frame is fixed, the body gives it back as it was, and
otherwise the frame pointer tells where it was.
-/

namespace MachineCode

theorem wordOf_savedSize (registers : List Register) :
    wordOf (savedSize registers).toInt64 = BitVec.ofNat 16 (2 * registers.length) := by
  apply BitVec.eq_of_toNat_eq
  have sizeEq : (savedSize registers).toInt64.toBitVec = BitVec.ofNat 64 registers.length * 2#64 :=
    rfl
  rw [wordOf, sizeEq, BitVec.toNat_setWidth, BitVec.toNat_mul, BitVec.toNat_ofNat,
    BitVec.toNat_ofNat, BitVec.toNat_ofNat]
  omega

theorem savedBytes_of_unsaved {function : Function} (unsaved : function.calleeSavedSize = 0) :
    function.savedBytes = savedSize function.calleeSaved := by
  unfold Function.savedBytes
  split
  next empty =>
    rw [unsaved, empty]
    rfl
  next => rfl

theorem width_of_mem_calleeSaved {register : Register} (member : register ∈ Register.calleeSaved) :
    register.width = .word ∧ register.number ≠ Register.sp.number := by
  revert register
  decide

/-- The state that the caller expects. -/
structure Returned (entry : Machine) (registers : List Register) (machine : Machine) : Prop where
  sp : machine.sp = entry.sp
  fp : machine.fp = entry.fp
  preserved : ∀ register ∈ registers,
    machine.registers register.number = entry.registers register.number

/-- The caller's frame pointer is saved and the function's own is set. -/
structure Entered (entry : Machine) (keeps : Bool) (machine : Machine) : Prop where
  sp : machine.sp = entry.sp - if keeps then 2 else 0
  registers : ∀ number, number ≠ Register.sp.number →
    machine.registers number = bodyRegisters entry keeps number
  framePointer : keeps = true → machine.load (entry.sp - 2) = entry.fp

theorem Framed.of_saves {entry middle after : Machine} {keeps : Bool} {registers : List Register}
    (fits : saveBytes keeps registers < 65536)
    (noStackPointer : ∀ register ∈ registers, register.number ≠ Register.sp.number)
    (entered : Entered entry keeps middle) (saves : Saves registers middle after) :
    Framed entry keeps registers after ∧ after.sp = savedTop entry keeps registers := by
  have enteredSp := entered.sp
  have size : saveBytes keeps registers = 2 * registers.length + if keeps then 2 else 0 := rfl
  have spEq : after.sp = savedTop entry keeps registers := by
    rw [saves.sp, enteredSp, savedTop]
    cases keeps with
    | false => simp [size]
    | true =>
        rw [if_pos rfl] at size ⊢
        bv_omega
  refine ⟨⟨fits, ?_, ?_, ?_⟩, spEq⟩
  · rintro rfl
    rw [if_pos rfl] at enteredSp size
    have elsewhere {address : BitVec 16} (above : (address - middle.sp).toNat < 2) :
        ¬bytesBelow middle.sp (2 * registers.length) address := by
      rw [bytesBelow]
      bv_omega
    rw [← entered.framePointer rfl, Machine.load, Machine.load,
      saves.elsewhere _ (elsewhere (by bv_omega)), saves.elsewhere _ (elsewhere (by bv_omega))]
  · rw [← spEq]
    apply saves.saved.congr_value
    intro register member
    exact (entered.registers _ (noStackPointer register member)).symm
  · exact (saves.unchanged _ (by decide)).trans (entered.registers _ (by decide))

theorem savedTop_of_keeps (entry : Machine) (registers : List Register) :
    savedTop entry true registers = entry.sp - 2 + -BitVec.ofNat 16 (2 * registers.length) := by
  rw [savedTop, saveBytes, if_pos rfl, BitVec.ofNat_add]
  generalize BitVec.ofNat 16 (2 * registers.length) = size
  bv_omega

theorem savedTop_of_not_keeps (entry : Machine) (registers : List Register) :
    savedTop entry false registers = entry.sp + -BitVec.ofNat 16 (2 * registers.length) := by
  rw [savedTop, saveBytes, if_neg Bool.false_ne_true, Nat.add_zero, BitVec.sub_eq_add_neg]

/-- A frame does not depend on the stack pointer. -/
theorem Framed.moveStack {entry machine : Machine} {keeps : Bool} {registers : List Register}
    (framed : Framed entry keeps registers machine) (status value : BitVec 16) :
    Framed entry keeps registers
      ((machine.set Register.sr.number status).set Register.sp.number value) := by
  apply framed.of_unchanged
  · intro _ _
    rfl
  · exact (Machine.registers_set_of_ne _ _ (by decide)).trans
      (Machine.registers_set_of_ne _ _ (by decide))

/-- Popping the frame pointer ends the way back to the caller. -/
theorem returned_of_pop {entry restored : Machine} {registers : List Register}
    (noStackPointer : ∀ register ∈ registers, register.number ≠ Register.sp.number)
    (spEq : restored.sp = entry.sp - 2) (loaded : restored.load (entry.sp - 2) = entry.fp)
    (values : ∀ register ∈ registers,
      restored.registers register.number = bodyRegisters entry true register.number) :
    Returned entry registers (restored.pop Register.fp.number) := by
  have framePointerEq : (restored.pop Register.fp.number).fp = entry.fp := by
    rw [← spEq] at loaded
    exact (Machine.registers_set_self _ _ _).trans loaded
  refine ⟨?_, framePointerEq, ?_⟩
  · rw [Machine.sp_pop (by decide), spEq]
    bv_omega
  · intro register member
    by_cases isFramePointer : register.number = Register.fp.number
    · rw [isFramePointer]
      exact framePointerEq
    · calc (restored.pop Register.fp.number).registers register.number
          = restored.registers register.number :=
            (Machine.registers_set_of_ne _ _ isFramePointer).trans
              (Machine.registers_set_of_ne _ _ (noStackPointer register member))
        _ = bodyRegisters entry true register.number := values register member
        _ = entry.registers register.number := Machine.registers_set_of_ne _ _ isFramePointer

section

variable {setting : Setting} {check : Instr → Machine → Prop}
  (unchecked : ∀ instr machine, instr.isTerminator = false → check instr machine)
  {entry : Machine} {keeps : Bool} {registers : List Register}

include unchecked

theorem safe_framePointerSetup :
    Safe setting check (Entered entry keeps) (if keeps then framePointerSetup else []) entry := by
  cases keeps with
  | false => exact ⟨(BitVec.sub_zero _).symm, fun _ _ => rfl, by simp⟩
  | true =>
      refine ⟨unchecked _ _ rfl, ?_⟩
      intro _ pushed pushEffect
      obtain rfl := (effect_push rfl).mp pushEffect
      apply Safe.single (unchecked _ _ rfl)
      intro copied copyEffect
      obtain rfl := (effect_copy rfl rfl).mp copyEffect
      have pushedSp : (entry.push Register.fp.number).sp = entry.sp - 2 :=
        Machine.registers_set_self _ _ _
      have copiedSp (value : BitVec 16) :
          ((entry.push Register.fp.number).set Register.fp.number value).sp = entry.sp - 2 :=
        (Machine.registers_set_of_ne _ _ (by decide)).trans pushedSp
      refine ⟨?_, ?_, fun _ => ?_⟩
      · rw [copiedSp, if_pos rfl]
      · intro number notStackPointer
        rw [bodyRegisters, if_pos rfl]
        by_cases isFramePointer : number = Register.fp.number
        · rw [isFramePointer, Machine.registers_set_self, Machine.registers_set_self]
          exact pushedSp
        · rw [Machine.registers_set_of_ne _ _ isFramePointer,
            Machine.registers_set_of_ne _ _ isFramePointer]
          exact Machine.registers_set_of_ne _ _ notStackPointer
      · exact Machine.load_store_self entry _ _

theorem safe_allocation {stands : Machine → Prop} {machine : Machine} {localArea : UInt64}
    {top : BitVec 16}
    (moves : ∀ machine status value, stands machine →
      stands ((machine.set Register.sr.number status).set Register.sp.number value))
    (standing : stands machine) (atTop : machine.sp = top) :
    Safe setting check (fun after => stands after ∧ after.sp = top + -wordOf localArea.toInt64)
      (allocation localArea) machine := by
  unfold allocation
  split
  next empty =>
    refine ⟨standing, ?_⟩
    rw [atTop, empty, wordOf_zero, BitVec.neg_zero, BitVec.add_zero]
  next =>
    apply Safe.single (unchecked _ _ rfl)
    intro after effect
    obtain ⟨status, rfl⟩ := effect_lowerStack.mp effect
    refine ⟨moves _ status _ standing, ?_⟩
    rw [← atTop]
    exact Machine.registers_set_self _ _ _

theorem safe_entryCode (localArea : UInt64) (fits : saveBytes keeps registers < 65536)
    (words : ∀ register ∈ registers, register.width = .word)
    (noStackPointer : ∀ register ∈ registers, register.number ≠ Register.sp.number) :
    Safe setting check
      (fun after => Framed entry keeps registers after ∧
        after.sp = savedTop entry keeps registers + -wordOf localArea.toInt64)
      (entryCode keeps registers localArea) entry := by
  rw [entryCode, List.append_assoc]
  apply (safe_framePointerSetup unchecked).append
  intro middle entered
  have registersFit : 2 * registers.length < 65536 :=
    Nat.lt_of_le_of_lt (Nat.le_add_right _ _) fits
  apply (safe_saveInstrs unchecked middle registersFit words noStackPointer).append
  intro between saves
  obtain ⟨framed, atTop⟩ := Framed.of_saves fits noStackPointer entered saves
  exact safe_allocation unchecked (fun _ status value framed => framed.moveStack status value)
    framed atTop

/-- Where objects of variable size lie below the preserved registers, the frame pointer tells where
these are. -/
theorem safe_release_dynamic {savedBytes localArea : UInt64} {machine : Machine}
    (framed : Framed entry true registers machine)
    (sizeEq : wordOf savedBytes.toInt64 = BitVec.ofNat 16 (2 * registers.length)) :
    Safe setting check
      (fun after => Framed entry true registers after ∧ after.sp = savedTop entry true registers)
      (release true savedBytes localArea) machine := by
  refine ⟨unchecked _ _ rfl, ?_⟩
  intro _ copied effect
  obtain rfl := (effect_copy rfl rfl).mp effect
  have fpEq : machine.fp = entry.sp - 2 := framed.fp.trans (Machine.registers_set_self _ _ _)
  have copiedSp : (machine.set Register.sp.number machine.fp).sp = entry.sp - 2 :=
    (Machine.registers_set_self _ _ _).trans fpEq
  have copiedFramed : Framed entry true registers (machine.set Register.sp.number machine.fp) := by
    apply framed.of_unchanged
    · intro _ _
      rfl
    · exact Machine.registers_set_of_ne _ _ (by decide)
  split
  next empty =>
    refine ⟨copiedFramed, copiedSp.trans ?_⟩
    rw [savedTop_of_keeps, ← sizeEq, empty, wordOf_zero, BitVec.neg_zero, BitVec.add_zero]
  next =>
    apply Safe.single (unchecked _ _ rfl)
    intro after lowerEffect
    obtain ⟨status, rfl⟩ := effect_lowerStack.mp lowerEffect
    refine ⟨copiedFramed.moveStack status _, ?_⟩
    rw [savedTop_of_keeps, ← sizeEq, ← copiedSp]
    exact Machine.registers_set_self _ _ _

/-- A local area of a fixed size is given back by raising the stack pointer. -/
theorem safe_release_fixed {savedBytes localArea : UInt64} {machine : Machine}
    (framed : Framed entry keeps registers machine)
    (spEq : machine.sp = savedTop entry keeps registers + -wordOf localArea.toInt64) :
    Safe setting check
      (fun after => Framed entry keeps registers after ∧ after.sp = savedTop entry keeps registers)
      (release false savedBytes localArea) machine := by
  rw [release, if_neg Bool.false_ne_true]
  split
  next empty =>
    refine ⟨framed, ?_⟩
    rw [spEq, empty, wordOf_zero, BitVec.neg_zero, BitVec.add_zero]
  next =>
    apply Safe.single (unchecked _ _ rfl)
    intro after effect
    obtain ⟨status, rfl⟩ := effect_raiseStack.mp effect
    refine ⟨framed.moveStack status _, ?_⟩
    have raised := Machine.registers_set_self (machine.set Register.sr.number status)
      Register.sp.number (machine.sp + wordOf localArea.toInt64)
    rw [Machine.sp, raised, spEq, BitVec.add_assoc, BitVec.add_left_neg, BitVec.add_zero]

theorem safe_release {hasVarSizedObjects : Bool} {savedBytes localArea : UInt64}
    {machine : Machine} (framed : Framed entry keeps registers machine)
    (fixed : hasVarSizedObjects = false →
      machine.sp = savedTop entry keeps registers + -wordOf localArea.toInt64)
    (dynamic : hasVarSizedObjects = true → keeps = true)
    (sizeEq : wordOf savedBytes.toInt64 = BitVec.ofNat 16 (2 * registers.length)) :
    Safe setting check
      (fun after => Framed entry keeps registers after ∧ after.sp = savedTop entry keeps registers)
      (release hasVarSizedObjects savedBytes localArea) machine := by
  cases hasVarSizedObjects with
  | true =>
      cases dynamic rfl
      exact safe_release_dynamic unchecked framed sizeEq
  | false => exact safe_release_fixed unchecked framed (fixed rfl)

theorem safe_exitCode {hasVarSizedObjects : Bool} {savedBytes localArea : UInt64}
    {machine : Machine} (framed : Framed entry keeps registers machine)
    (words : ∀ register ∈ registers, register.width = .word)
    (noStackPointer : ∀ register ∈ registers, register.number ≠ Register.sp.number)
    (fixed : hasVarSizedObjects = false →
      machine.sp = savedTop entry keeps registers + -wordOf localArea.toInt64)
    (dynamic : hasVarSizedObjects = true → keeps = true)
    (sizeEq : wordOf savedBytes.toInt64 = BitVec.ofNat 16 (2 * registers.length)) :
    Safe setting check (Returned entry registers)
      (exitCode keeps registers (release hasVarSizedObjects savedBytes localArea)) machine := by
  apply (safe_release unchecked framed fixed dynamic sizeEq).append
  intro released ⟨framed, atTop⟩
  have saved := framed.saved
  rw [← atTop] at saved
  apply (safe_restoreInstrs unchecked words noStackPointer saved).append
  intro restored restores
  have restoredSp := restores.sp
  rw [atTop] at restoredSp
  cases keeps with
  | false =>
      rw [savedTop_of_not_keeps, BitVec.add_assoc, BitVec.add_left_neg, BitVec.add_zero]
        at restoredSp
      exact ⟨restoredSp, restores.eq_value (by decide) framed.fp, restores.restored⟩
  | true =>
      rw [savedTop_of_keeps, BitVec.add_assoc, BitVec.add_left_neg, BitVec.add_zero] at restoredSp
      apply Safe.single (unchecked _ _ rfl)
      intro after effect
      obtain rfl := (effect_pop rfl).mp effect
      have loaded := framed.framePointer rfl
      rw [Machine.load, ← restores.memory] at loaded
      exact returned_of_pop noStackPointer restoredSp loaded restores.restored

end

end MachineCode
