import MachineCode.Proofs.Frame.Body

/-!
# Resolved slots

A load or a store with a slot becomes one with the frame register as base, and taking the address
of a slot becomes a copy of the frame register and at most one offset. In both cases the code
addresses the frame register plus the displacement of the slot: the load or the store uses that
address, and the other code leaves it in its target.
-/

namespace MachineCode

/-- The position of the memory operand of a load or a store, and of the slot in the instruction
that takes the address of one. -/
def Opcode.slotPosition? : Opcode → Option Nat
  | .mov16rm | .add16ri => some 1
  | .mov16mr => some 0
  | _ => none

/-- The slot that an instruction accesses or takes the address of, with the addend. -/
def Instr.slot? (instr : Instr) : Option (FrameIndex × Int64) :=
  instr.opcode.slotPosition?.bind fun position =>
    match instr.operands[position]?, instr.operands[position + 1]? with
    | some (.frameIndex index), some (.immediate addend) => some (index, addend)
    | _, _ => none

/-- The address that a load or a store uses. -/
def Instr.address? (instr : Instr) (machine : Machine) : Option (BitVec 16) :=
  instr.opcode.slotPosition?.bind fun position =>
    match instr.operands[position]?, instr.operands[position + 1]? with
    | some (.register (.physical base) _), some (.immediate displacement) =>
        some (machine.registers base.number + wordOf displacement)
    | _, _ => none

theorem slot?_eq_some {instr : Instr} {index : FrameIndex} {addend : Int64}
    (slot : instr.slot? = some (index, addend)) :
    ∃ position, instr.opcode.slotPosition? = some position ∧
      instr.operands[position]? = some (.frameIndex index) ∧
      instr.operands[position + 1]? = some (.immediate addend) := by
  obtain ⟨position, positionEq, found⟩ := Option.bind_eq_some_iff.mp slot
  refine ⟨position, positionEq, ?_⟩
  split at found
  next indexFound addendFound =>
    cases found
    exact ⟨indexFound, addendFound⟩
  next => contradiction

theorem Opcode.slotPosition?_le {opcode : Opcode} {position : Nat}
    (positionEq : opcode.slotPosition? = some position) : position ≤ 1 := by
  unfold slotPosition? at positionEq
  split at positionEq
  · cases positionEq
    exact Nat.le_refl 1
  · cases positionEq
    exact Nat.le_refl 1
  · cases positionEq
    exact Nat.zero_le 1
  · contradiction

theorem isCallPseudo_of_slotPosition? {instr : Instr} {position : Nat}
    (positionEq : instr.opcode.slotPosition? = some position) :
    instr.isCallPseudo = false ∧ instr.isReturn = false := by
  rw [Instr.isCallPseudo, Instr.isReturn]
  cases opcodeEq : instr.opcode with
  | mov16rm | mov16mr | add16ri => exact ⟨rfl, rfl⟩
  | _ =>
      rw [opcodeEq] at positionEq
      contradiction

/-! ## The order of the slots -/

theorem mem_slotPositions {instr : Instr} {position : Nat} :
    position ∈ instr.slotPositions ↔
      ∃ index, instr.operands[position]? = some (.frameIndex index) := by
  rw [Instr.slotPositions, List.mem_filter, List.mem_range]
  constructor
  · rintro ⟨-, isSlot⟩
    obtain ⟨index, found⟩ := Option.isSome_iff_exists.mp isSlot
    obtain ⟨operand, operandFound, isIndex⟩ := Option.bind_eq_some_iff.mp found
    cases operand with
    | frameIndex other => exact ⟨other, operandFound⟩
    | _ => contradiction
  · rintro ⟨index, found⟩
    refine ⟨(List.getElem?_eq_some_iff.mp found).1, ?_⟩
    rw [found]
    rfl

/-- Slots are resolved from the left to the right. -/
theorem slotPositions_split {instr : Instr} {position : Nat}
    (member : position ∈ instr.slotPositions) :
    ∃ earlier later, instr.slotPositions = earlier ++ position :: later ∧
      (∀ other ∈ earlier, other < position) ∧ ∀ other ∈ later, position < other := by
  have sorted : instr.slotPositions.Pairwise (· < ·) := List.pairwise_lt_range.filter _
  obtain ⟨earlier, later, splits⟩ := List.append_of_mem member
  rw [splits, List.pairwise_append, List.pairwise_cons] at sorted
  obtain ⟨-, ⟨laterGreater, -⟩, crossing⟩ := sorted
  exact ⟨earlier, later, splits, fun other inEarlier => crossing other inEarlier _ (by simp),
    laterGreater⟩

/-- The slot of an instruction is resolved first: an operand in front of it is no slot, because
its addend would be a slot. -/
theorem exists_of_lowerInstr_slot {options : Options} {frame : Frame} {keeps : Bool}
    {adjustment last : Int64} {instr : Instr} {code : List Instr} {position : Nat}
    {index : FrameIndex} {addend : Int64}
    (positionEq : instr.opcode.slotPosition? = some position)
    (indexFound : instr.operands[position]? = some (.frameIndex index))
    (addendFound : instr.operands[position + 1]? = some (.immediate addend))
    (ran : lowerInstr options frame keeps adjustment instr = .done code last) :
    ∃ resolved later, resolveSlot frame keeps instr position = .ok resolved ∧
      resolveSlots frame keeps adjustment (resolved.following ++ []) resolved.instr later =
        .done code last ∧
      ∀ other ∈ later, position + 2 ≤ other := by
  obtain ⟨earlier, later, splits, less, greater⟩ :=
    slotPositions_split (mem_slotPositions.mpr ⟨index, indexFound⟩)
  rw [lowerInstr, (isCallPseudo_of_slotPosition? positionEq).1, if_neg Bool.false_ne_true,
    splits] at ran
  cases earlier with
  | cons other rest =>
      obtain ⟨resolved, resolvedRan, -⟩ := resolveSlots_cons_eq_done ran
      obtain ⟨_, _, _, -, otherAddend, -⟩ := resolveSlot_eq_ok resolvedRan
      have next : other + 1 = position := by
        have bound := Opcode.slotPosition?_le positionEq
        have below := less other (List.mem_cons_self ..)
        omega
      rw [next, indexFound] at otherAddend
      cases otherAddend
  | nil =>
      obtain ⟨resolved, resolvedRan, restRan⟩ := resolveSlots_cons_eq_done ran
      refine ⟨resolved, later, resolvedRan, restRan, ?_⟩
      intro other member
      have notAddend : other ≠ position + 1 := by
        rintro rfl
        have isSlot : position + 1 ∈ instr.slotPositions := by
          rw [splits]
          simp [member]
        obtain ⟨_, found⟩ := mem_slotPositions.mp isSlot
        cases addendFound.symm.trans found
      have above := greater other member
      omega

/-- Resolving slots changes no operand in front of them, and no opcode but that of a sum. -/
theorem resolveSlots_keeps {frame : Frame} {keeps : Bool} {adjustment last : Int64}
    {following items : List Instr} {instr : Instr} {positions : List Nat} {bound : Nat}
    (noSum : instr.opcode ≠ .add16ri) (behind : ∀ position ∈ positions, bound ≤ position)
    (ran : resolveSlots frame keeps adjustment following instr positions = .done items last) :
    ∃ resolved, items = resolved :: following ∧ resolved.opcode = instr.opcode ∧
      ∀ place < bound, resolved.operands[place]? = instr.operands[place]? := by
  induction positions generalizing instr with
  | nil =>
      cases ran
      exact ⟨instr, rfl, rfl, fun _ _ => rfl⟩
  | cons position rest ih =>
      rw [List.forall_mem_cons] at behind
      obtain ⟨first, firstRan, restRan⟩ := resolveSlots_cons_eq_done ran
      obtain ⟨_, _, _, -, -, -, ⟨_, _, isSum, -⟩ | ⟨-, rfl⟩⟩ := resolveSlot_eq_ok firstRan
      · exact (noSum isSum).elim
      · obtain ⟨resolved, rfl, opcodeEq, operandsEq⟩ := ih (by exact noSum) behind.2 restRan
        refine ⟨resolved, rfl, opcodeEq, ?_⟩
        intro place inFront
        rw [operandsEq place inFront, List.getElem?_set_ne (by omega),
          List.getElem?_set_ne (by omega)]

theorem resolveSlots_of_short {frame : Frame} {keeps : Bool} {adjustment last : Int64}
    {following items : List Instr} {instr : Instr} {positions : List Nat}
    (outside : ∀ position ∈ positions, instr.operands.length ≤ position)
    (ran : resolveSlots frame keeps adjustment following instr positions = .done items last) :
    items = instr :: following := by
  cases positions with
  | nil =>
      cases ran
      rfl
  | cons position rest =>
      obtain ⟨first, firstRan, -⟩ := resolveSlots_cons_eq_done ran
      obtain ⟨_, _, _, found, -⟩ := resolveSlot_eq_ok firstRan
      rw [List.getElem?_eq_none (outside position (List.mem_cons_self ..))] at found
      contradiction

/-! ## The code of a slot -/

def takeAddress (base : Register) (target : Reg) (flags : RegisterFlags) (displacement : Int64) :
    List Instr :=
  { opcode := .mov16rr, operands := [.register target flags, .use base] } ::
    addDisplacement target displacement

/-- What lowering makes of an instruction with a slot. -/
theorem lowerInstr_slot_eq_done {options : Options} {frame : Frame} {keeps : Bool}
    {adjustment last : Int64} {instr : Instr} {code : List Instr} {index : FrameIndex}
    {addend : Int64} (slot : instr.slot? = some (index, addend))
    (ran : lowerInstr options frame keeps adjustment instr = .done code last) :
    ∃ object, frame.object index = .ok object ∧
      ((instr.opcode ≠ .add16ri ∧ ∃ access, code = [access] ∧ access.opcode = instr.opcode ∧
          ∀ machine, access.address? machine =
            some (machine.registers (frameRegister keeps).number +
              wordOf (frame.displacement keeps object addend))) ∨
        instr.opcode = .add16ri ∧ ∃ target flags,
          instr.operands[0]? = some (.register target flags) ∧
          code = takeAddress (frameRegister keeps) target flags
            (frame.displacement keeps object addend)) := by
  obtain ⟨position, positionEq, indexFound, addendFound⟩ := slot?_eq_some slot
  obtain ⟨resolved, later, resolvedRan, restRan, behind⟩ :=
    exists_of_lowerInstr_slot positionEq indexFound addendFound ran
  obtain ⟨_, _, object, sameIndex, sameAddend, objectFound, forms⟩ := resolveSlot_eq_ok resolvedRan
  cases indexFound.symm.trans sameIndex
  cases addendFound.symm.trans sameAddend
  have addendBound := (List.getElem?_eq_some_iff.mp addendFound).1
  refine ⟨object, objectFound, ?_⟩
  rcases forms with ⟨target, flags, isSum, targetFound, rfl⟩ | ⟨noSum, rfl⟩
  · right
    rw [isSum] at positionEq
    cases positionEq
    refine ⟨isSum, target, flags, targetFound, ?_⟩
    have copyEq : (instr.operands.set 1 (.use (frameRegister keeps))).take 2 =
        [.register target flags, .use (frameRegister keeps)] := by
      match operandsEq : instr.operands, targetFound, indexFound with
      | _ :: _ :: _, rfl, _ => rfl
    have codeEq := resolveSlots_of_short (fun other member => by
      have far := behind other member
      rw [List.length_take]
      omega) restRan
    rw [codeEq, copyEq, List.append_nil, takeAddress]
  · left
    obtain ⟨access, codeEq, opcodeEq, operandsEq⟩ :=
      resolveSlots_keeps (by exact noSum) behind restRan
    refine ⟨noSum, access, codeEq, opcodeEq, ?_⟩
    intro machine
    rw [Instr.address?, opcodeEq, positionEq, Option.bind_some, operandsEq _ (by omega),
      operandsEq _ (by omega), List.getElem?_set_ne (by omega),
      List.getElem?_set_self (by omega), List.getElem?_set_self (by rw [List.length_set]; omega)]
    rfl

/-! ## The address that code takes -/

/-- Amounts add up as machine words do. -/
theorem wordOf_add (left right : Int64) : wordOf (left + right) = wordOf left + wordOf right :=
  BitVec.setWidth_add _ _ (by decide)

theorem wordOf_neg (amount : Int64) : wordOf (-amount) = -wordOf amount :=
  BitVec.setWidth_neg_of_le (by decide)

/-- What an instruction of address arithmetic does to the values of registers, whether they have
been allocated or not. -/
def Instr.compute (instr : Instr) (value : Reg → BitVec 16) : Reg → BitVec 16 :=
  match instr.opcode, instr.operands with
  | .mov16rr, .register target _ :: .register source _ :: _ =>
      Function.update value target (value source)
  | .add16ri, .register target _ :: .register source _ :: .immediate amount :: _ =>
      Function.update value target (value source + wordOf amount)
  | .sub16ri, .register target _ :: .register source _ :: .immediate amount :: _ =>
      Function.update value target (value source + -wordOf amount)
  | _, _ => value

/-- The values that code leaves in registers. -/
def computed (value : Reg → BitVec 16) (code : List Instr) : Reg → BitVec 16 :=
  code.foldl (fun value instr => instr.compute value) value

/-- A displacement is subtracted if it is negative and added otherwise, which is the same. -/
theorem addDisplacement_cases (target : Reg) (displacement : Int64) :
    (addDisplacement target displacement = [] ∧ wordOf displacement = 0#16) ∨
      (∃ amount, addDisplacement target displacement = [.adjust .sub16ri target amount] ∧
        wordOf displacement = -wordOf amount) ∨
      ∃ amount, addDisplacement target displacement = [.adjust .add16ri target amount] ∧
        wordOf displacement = wordOf amount := by
  unfold addDisplacement
  split
  next nothing =>
    subst nothing
    exact .inl ⟨rfl, rfl⟩
  next =>
    have absEq : displacement.abs.toBitVec = displacement.toBitVec.abs := rfl
    have signEq : displacement < 0 ↔ displacement.toBitVec.msb = true := by
      rw [Int64.lt_iff_toBitVec_slt, ← BitVec.slt_zero_eq_msb]
      rfl
    right
    split
    next negative =>
      left
      refine ⟨displacement.abs, rfl, ?_⟩
      rw [← wordOf_neg, wordOf, wordOf, Int64.toBitVec_neg, absEq, BitVec.abs_eq,
        if_pos (signEq.mp negative), BitVec.neg_neg]
    next nonnegative =>
      right
      refine ⟨displacement.abs, rfl, ?_⟩
      rw [wordOf, wordOf, absEq, BitVec.abs_eq, if_neg (fun sign => nonnegative (signEq.mpr sign))]

theorem computed_takeAddress (value : Reg → BitVec 16) (base : Register) (target : Reg)
    (flags : RegisterFlags) (displacement : Int64) :
    computed value (takeAddress base target flags displacement) target =
      value (.physical base) + wordOf displacement := by
  rw [takeAddress]
  rcases addDisplacement_cases target displacement with
    ⟨codeEq, wordEq⟩ | ⟨amount, codeEq, wordEq⟩ | ⟨amount, codeEq, wordEq⟩
  · rw [codeEq, wordEq, BitVec.add_zero]
    exact Function.update_self _ _ _
  · rw [codeEq, wordEq]
    simp [computed, Instr.compute, Instr.adjust, Operand.use]
  · rw [codeEq, wordEq]
    simp [computed, Instr.compute, Instr.adjust, Operand.use]

theorem Ran.addDisplacement {setting : Setting} {register : Register} {displacement : Int64}
    {before after : Machine} (isWord : register.width = .word)
    (ran : Ran setting (addDisplacement (.physical register) displacement) before after) :
    after.registers register.number = before.registers register.number + wordOf displacement := by
  obtain ⟨number, width⟩ := register
  cases isWord
  rcases addDisplacement_cases (.physical ⟨number, .word⟩) displacement with
    ⟨codeEq, wordEq⟩ | ⟨amount, codeEq, wordEq⟩ | ⟨amount, codeEq, wordEq⟩
  · rw [codeEq] at ran
    cases ran
    rw [wordEq, BitVec.add_zero]
  · rw [codeEq] at ran
    obtain _ | ⟨_, ⟨status, rfl⟩, ⟨⟩⟩ := ran
    rw [wordEq]
    exact Machine.registers_set_self _ _ _
  · rw [codeEq] at ran
    obtain _ | ⟨_, ⟨status, rfl⟩, ⟨⟩⟩ := ran
    rw [wordEq]
    exact Machine.registers_set_self _ _ _

theorem Ran.takeAddress {setting : Setting} {base register : Register} {flags : RegisterFlags}
    {displacement : Int64} {before after : Machine} (baseIsWord : base.width = .word)
    (isWord : register.width = .word)
    (ran : Ran setting (takeAddress base (.physical register) flags displacement) before after) :
    after.registers register.number = before.registers base.number + wordOf displacement := by
  obtain _ | ⟨-, copied, added⟩ := ran
  rw [added.addDisplacement isWord]
  obtain ⟨baseNumber, baseWidth⟩ := base
  obtain ⟨number, width⟩ := register
  cases baseIsWord
  cases isWord
  cases copied
  rw [Machine.registers_set_self]

end MachineCode
