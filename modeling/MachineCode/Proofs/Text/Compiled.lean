import MachineCode.Proofs.Rewriting
import MachineCode.Proofs.Text.Canonical

/-!
# Compiled code is read back

The text of an instruction has its results in front, so it can only be read back if no result
stands behind another operand. Every rewriting of code keeps to this form. Hence a canonical
function stays canonical through lowering, relaxation and compilation as a whole, whether they
succeed or stop half-way, and what they leave can be printed and read back.
-/

namespace MachineCode.Text

/-! ## Leading results -/

section

variable {item : Type} {leads : item → Bool}

/-- Nothing that leads stands behind something that does not. -/
def IsLed (leads : item → Bool) (items : List item) : Prop :=
  items.Pairwise fun earlier later => leads later = true → leads earlier = true

theorem forall_mem_dropWhile_iff_isLed {items : List item} :
    (∀ later ∈ items.dropWhile leads, leads later = false) ↔ IsLed leads items := by
  induction items with
  | nil => simp [IsLed]
  | cons head rest ih =>
      rw [IsLed, List.pairwise_cons]
      cases headLeads : leads head with
      | true =>
          rw [List.dropWhile_cons_of_pos headLeads, ih, IsLed]
          simp
      | false =>
          rw [List.dropWhile_cons_of_neg (by simp [headLeads])]
          constructor
          · intro noneLeads
            have behind (later : item) (member : later ∈ rest) : leads later = false :=
              noneLeads later (List.mem_cons_of_mem head member)
            refine ⟨fun later member isLeading => ?_, ?_⟩
            · rw [behind later member] at isLeading
              contradiction
            · refine List.pairwise_of_forall_mem_list fun _ _ later member isLeading => ?_
              rw [behind later member] at isLeading
              contradiction
          · rintro ⟨behind, -⟩
            refine List.forall_mem_cons.mpr ⟨headLeads, fun later member => ?_⟩
            exact Bool.eq_false_iff.mpr fun isLeading =>
              Bool.false_ne_true (behind later member isLeading)

/-- What does not lead can be replaced by something else that does not. -/
theorem IsLed.set {items : List item} {place : Nat} {old new : item} (led : IsLed leads items)
    (found : items[place]? = some old) (oldBehind : leads old = false)
    (newBehind : leads new = false) : IsLed leads (items.set place new) := by
  obtain ⟨before, after, rfl, rfl⟩ := exists_append_cons_of_getElem? found
  rw [List.set_append_right _ _ (Nat.le_refl _), Nat.sub_self, List.set_cons_zero]
  rw [IsLed, List.pairwise_append, List.pairwise_cons] at led ⊢
  obtain ⟨ledBefore, ⟨afterOld, ledAfter⟩, across⟩ := led
  refine ⟨ledBefore, ⟨?_, ledAfter⟩, ?_⟩
  · intro later member isLeading
    have impossible := afterOld later member isLeading
    rw [oldBehind] at impossible
    contradiction
  · intro earlier isEarlier
    refine List.forall_mem_cons.mpr ⟨?_, fun later member => ?_⟩
    · intro isLeading
      rw [newBehind] at isLeading
      contradiction
    · exact across earlier isEarlier later (List.mem_cons_of_mem old member)

end

/-! ## Canonical instructions -/

/-- An instruction that its written form describes, in a function with the given number of
blocks. -/
structure IsCanonicalInstr (blocks : Nat) (instr : Instr) : Prop where
  operands : ∀ operand ∈ instr.operands, IsCanonicalOperand blocks operand
  definitions : IsLed Instr.isLeading instr.operands

theorem isCanonicalOperand_use (blocks : Nat) (register : Register) :
    IsCanonicalOperand blocks (.use register) := nofun

namespace IsCanonicalInstr

variable {blocks : Nat} {instr : Instr}

/-- An operand can be replaced by another one if neither is a result. -/
theorem set (canonical : IsCanonicalInstr blocks instr) {place : Nat} {old new : Operand}
    (found : instr.operands[place]? = some old) (oldBehind : Instr.isLeading old = false)
    (newBehind : Instr.isLeading new = false) (newCanonical : IsCanonicalOperand blocks new) :
    IsCanonicalInstr blocks { instr with operands := instr.operands.set place new } where
  operands operand member := by
    rcases List.mem_or_eq_of_mem_set member with own | rfl
    · exact canonical.operands operand own
    · exact newCanonical
  definitions := canonical.definitions.set found oldBehind newBehind

theorem take (canonical : IsCanonicalInstr blocks instr) (count : Nat) (opcode : Opcode) :
    IsCanonicalInstr blocks { opcode, operands := instr.operands.take count } where
  operands operand member := canonical.operands operand (List.mem_of_mem_take member)
  definitions := canonical.definitions.sublist (List.take_sublist count _)

theorem resolve (canonical : IsCanonicalInstr blocks instr) {frame : Frame} {keeps : Bool}
    {position : Nat} {resolved : ResolvedSlot}
    (ran : resolveSlot frame keeps instr position = .ok resolved) :
    IsCanonicalInstr blocks resolved.instr := by
  obtain ⟨index, addend, object, slot, addendFound, -, rewritten⟩ := resolveSlot_eq_ok ran
  let base : Operand := .use (frameRegister keeps)
  have based := canonical.set slot rfl rfl (isCanonicalOperand_use blocks (frameRegister keeps))
  rcases rewritten with ⟨_, _, -, -, rfl⟩ | ⟨-, rfl⟩
  · exact based.take (position + 1) .mov16rr
  · have behindBase : (instr.operands.set position base)[position + 1]? =
        some (.immediate addend) := by
      rw [← addendFound]
      exact List.getElem?_set_ne (Nat.ne_of_lt (Nat.lt_succ_self position))
    exact based.set behindBase rfl rfl trivial

/-- The long form of a branch leads to the block to which the branch leads. -/
theorem expand (canonical : IsCanonicalInstr blocks instr) {blockCount : Nat} {target : BlockId}
    {long : List Instr} (known : Relaxation.branchTarget blockCount instr = .ok target)
    (expanded : Relaxation.longForm instr target = .ok long) :
    ∀ item ∈ long, IsCanonicalInstr blocks item := by
  obtain ⟨targets, -⟩ := Relaxation.branchTarget_eq_ok_iff.mp known
  have inside : IsCanonicalOperand blocks (.block target) :=
    canonical.operands _ (List.mem_of_getElem? targets)
  have jump : IsCanonicalInstr blocks { opcode := .bi, operands := [.block target] } :=
    ⟨List.forall_mem_singleton.mpr inside, List.pairwise_singleton _ _⟩
  rcases Relaxation.longForm_eq_ok expanded with rfl | ⟨code, rfl⟩
  · exact List.forall_mem_singleton.mpr jump
  · refine List.forall_mem_cons.mpr ⟨⟨?_, ?_⟩, List.forall_mem_singleton.mpr jump⟩
    · simp [IsCanonicalOperand]
    · simp [IsLed, Instr.isLeading, Operand.isDef]

theorem survivesRewriting (blocks : Nat) : SurvivesRewriting (IsCanonicalInstr blocks) where
  push register := ⟨by simp [Instr.push, Operand.kill, IsCanonicalOperand],
    List.pairwise_singleton _ _⟩
  pop register := ⟨by simp [Instr.pop, Operand.define, IsCanonicalOperand],
    List.pairwise_singleton _ _⟩
  copy target source :=
    ⟨by simp [Instr.copy, Operand.define, Operand.use, IsCanonicalOperand],
      by simp [Instr.copy, IsLed, Instr.isLeading, Operand.define, Operand.use, Operand.isDef]⟩
  adjust opcode reg amount :=
    ⟨by simp [Instr.adjust, Operand.deadStatus, IsCanonicalOperand],
      by simp [Instr.adjust, IsLed, Instr.isLeading, Operand.deadStatus, Operand.isDef,
        Operand.isImplicit]⟩
  resolve canonical ran := canonical.resolve ran
  expand canonical known expanded := canonical.expand known expanded

end IsCanonicalInstr

/-! ## Canonical functions -/

namespace IsCanonical

variable {earlier later : Function}

theorem every (canonical : IsCanonical earlier) :
    earlier.Every (IsCanonicalInstr earlier.blocks.length) :=
  fun block isBlock instr isInstr =>
    { operands := canonical.operands block isBlock instr isInstr
      definitions := forall_mem_dropWhile_iff_isLed.mp
        (canonical.definitions block isBlock instr isInstr) }

/-- A function with the names of a canonical one and with canonical instructions is canonical. -/
theorem of_keepsNames (canonical : IsCanonical earlier) (keeps : KeepsNames earlier later)
    (every : later.Every (IsCanonicalInstr earlier.blocks.length)) : IsCanonical later := by
  have lengthEq : later.blocks.length = earlier.blocks.length := by
    rw [← List.length_map Block.name, keeps.labels, List.length_map]
  have sameLabel {block : Block} (isBlock : block ∈ later.blocks) :
      ∃ original ∈ earlier.blocks, original.name = block.name := by
    have isLabel := List.mem_map_of_mem (f := Block.name) isBlock
    rw [keeps.labels] at isLabel
    exact List.mem_map.mp isLabel
  exact
    { name_ne_nil := by
        rw [keeps.name]
        exact canonical.name_ne_nil
      name_chars := by
        rw [keeps.name]
        exact canonical.name_chars
      label_ne_nil := fun block isBlock => by
        obtain ⟨original, isOriginal, same⟩ := sameLabel isBlock
        rw [← same]
        exact canonical.label_ne_nil original isOriginal
      label_chars := fun block isBlock => by
        obtain ⟨original, isOriginal, same⟩ := sameLabel isBlock
        rw [← same]
        exact canonical.label_chars original isOriginal
      distinct := by
        rw [keeps.labels]
        exact canonical.distinct
      operands := fun block isBlock instr isInstr => by
        rw [lengthEq]
        exact (every block isBlock instr isInstr).operands
      definitions := fun block isBlock instr isInstr =>
        forall_mem_dropWhile_iff_isLed.mpr (every block isBlock instr isInstr).definitions }

/-- A pass that preserves what all its steps preserve leaves a canonical function canonical. -/
theorem preserves {result : Type} {pass : Pass result}
    (keeps : ∀ {invariant : Function → Prop}, IsPreserved invariant → pass.Preserves invariant) :
    pass.Preserves IsCanonical := by
  intro function canonical
  have names := keeps (KeepsNames.isPreserved function) function ⟨rfl, rfl⟩
  have instrs := keeps (IsCanonicalInstr.survivesRewriting _).isPreserved function canonical.every
  exact canonical.of_keepsNames names instrs

end IsCanonical

/-- A canonical function that is read back from its text. -/
def IsReadBack (function : Function) : Prop :=
  IsCanonical function ∧ readModule function.print = .ok [withoutAnalyses function]

theorem IsCanonical.isReadBack {function : Function} (canonical : IsCanonical function) :
    IsReadBack function := by
  have read := readModule_print (List.forall_mem_singleton.mpr canonical.isWritableFunction)
  rw [List.map_singleton, List.map_singleton, String.intercalate_singleton,
    canonical.functionAsWritten_eq] at read
  exact ⟨canonical, read⟩

/-- What lowering, relaxation and compilation make of a canonical function is canonical and is read
back from its text, whether they succeed or stop. -/
theorem isReadBack_compiled {function : Function} (canonical : IsCanonical function)
    (options : Options) :
    IsReadBack ((lowerFrame options).leaves function) ∧
      IsReadBack (relaxBranches.leaves function) ∧
      IsReadBack ((compileFunction options).leaves function) := by
  have lowered := IsCanonical.preserves (fun preserved => preserved.lowerFrame options)
  have relaxed := IsCanonical.preserves IsPreserved.relaxBranches
  have compiled := IsCanonical.preserves (fun preserved => preserved.compileFunction options)
  exact ⟨(lowered function canonical).isReadBack, (relaxed function canonical).isReadBack,
    (compiled function canonical).isReadBack⟩

/-- A function that takes the address of a slot, and whose last load is from a slot that is not
there. -/
def misplaced : Function where
  name := "misplaced"
  blocks := [
    { name := "entry"
      instrs := [
        { opcode := .add16ri
          operands := [.register (.virtual 3) { isDef := true }, .frameIndex 0, .immediate 2,
            .deadStatus] },
        { opcode := .adjCallStackDown, operands := [.immediate 3] },
        { opcode := .adjCallStackUp, operands := [.immediate 3, .immediate 0] },
        { opcode := .jcc, operands := [.block 1, .immediate Condition.lower.code] }] },
    { name := "exit"
      instrs := [
        { opcode := .mov16mr, operands := [.frameIndex 0, .immediate 0, .use .fp] },
        { opcode := .mov16rm, operands := [.define .fp, .frameIndex 7, .immediate 0] },
        { opcode := .ret }] }]
  frame :=
    { stackSize := 8
      hasVarSizedObjects := true
      objects := [{ size := 4, offset := -8 }] }
  calleeSaved := [.fp]

/-- What compilation leaves of it when it comes to that load. -/
def partlyLowered : Function where
  name := "misplaced"
  blocks := [
    { name := "entry"
      liveIns := RegisterSet.empty.insert .fp
      instrs := [
        .push .fp, .copy .fp .sp, .push .fp, .lowerStack 4,
        { opcode := .mov16rr
          operands := [.register (.virtual 3) { isDef := true }, .use .fp] },
        .adjust .sub16ri (.virtual 3) 2, .lowerStack 4, .raiseStack 4,
        { opcode := .jcc, operands := [.block 1, .immediate Condition.lower.code] }] },
    { name := "exit"
      liveIns := RegisterSet.empty.insert .fp
      instrs := [
        { opcode := .mov16mr, operands := [.use .fp, .immediate (-4), .use .fp] },
        { opcode := .mov16rm, operands := [.define .fp, .frameIndex 7, .immediate 0] },
        .copy .sp .fp, .lowerStack 2, .pop .fp, .pop .fp,
        { opcode := .ret }] }]
  frame :=
    { stackSize := 8
      hasVarSizedObjects := true
      offsetAdjustment := -4
      objects := [{ size := 4, offset := -8 }]
      fixedObjects := [framePointerSlot]
      framePointer? := some true }
  calleeSaved := [.fp]
  calleeSavedSize := 2

theorem isReadBack_compiled_misplaced :
    IsCanonical misplaced ∧
      (compileFunction {}).run misplaced = .error (.unknownFrameIndex 7) partlyLowered ∧
      IsReadBack partlyLowered := by
  have canonical : IsCanonical misplaced := by decide +kernel
  have stopped : (compileFunction {}).run misplaced =
      .error (.unknownFrameIndex 7) partlyLowered := by
    decide +kernel
  obtain ⟨-, -, compiled⟩ := isReadBack_compiled canonical {}
  rw [Pass.leaves_of_error stopped] at compiled
  exact ⟨canonical, stopped, compiled⟩

end MachineCode.Text
