import MachineCode.Proofs.Text.Function

/-!
# Canonical functions are read back

A function is canonical if its names survive in the text and its flags have a written form. Printing
canonical functions and reading the text gives the functions again, without the results of the
analyses, which the text does not hold.
-/

namespace MachineCode.Text

/-- An operand that its written form describes, in a function with the given number of blocks. -/
def IsCanonicalOperand (blocks : Nat) : Operand → Prop
  | .register _ flags => flags.isDead = true → flags.isDef = true
  | .symbol name => ∀ char ∈ name.toList, isSpace char = false ∧ char ∉ [',', ';', '=']
  | .block target => target < blocks
  | .immediate _ | .frameIndex _ => True

instance (blocks : Nat) : DecidablePred (IsCanonicalOperand blocks)
  | .register _ flags => inferInstanceAs (Decidable (flags.isDead = true → flags.isDef = true))
  | .symbol name => inferInstanceAs
      (Decidable (∀ char ∈ name.toList, isSpace char = false ∧ char ∉ [',', ';', '=']))
  | .block target => inferInstanceAs (Decidable (target < blocks))
  | .immediate _ => .isTrue trivial
  | .frameIndex _ => .isTrue trivial

/-- A function that its written form describes, apart from the results of the analyses. -/
structure IsCanonical (function : Function) : Prop where
  name_ne_nil : function.name.toList ≠ []
  name_chars : ∀ char ∈ function.name.toList, isSpace char = false ∧ char ≠ ';'
  label_ne_nil : ∀ block ∈ function.blocks, block.name.toList ≠ []
  label_chars : ∀ block ∈ function.blocks, ∀ char ∈ block.name.toList,
    isAlphanumeric char = true ∨ char = '_' ∨ char = '.'
  distinct : (function.blocks.map Block.name).Nodup
  operands : ∀ block ∈ function.blocks, ∀ instr ∈ block.instrs, ∀ operand ∈ instr.operands,
    IsCanonicalOperand function.blocks.length operand
  /-- Behind the registers that an instruction writes explicitly there are no more of them. -/
  definitions : ∀ block ∈ function.blocks, ∀ instr ∈ block.instrs,
    ∀ operand ∈ instr.operands.dropWhile Instr.isLeading, Instr.isLeading operand = false

instance : DecidablePred IsCanonical := fun _ =>
  decidable_of_iff (_ ∧ _ ∧ _ ∧ _ ∧ _ ∧ _ ∧ _)
    ⟨fun ⟨nameNonempty, nameChars, labelNonempty, labelChars, distinct, operands, definitions⟩ =>
      ⟨nameNonempty, nameChars, labelNonempty, labelChars, distinct, operands, definitions⟩,
    fun ⟨nameNonempty, nameChars, labelNonempty, labelChars, distinct, operands, definitions⟩ =>
      ⟨nameNonempty, nameChars, labelNonempty, labelChars, distinct, operands, definitions⟩⟩

/-- A function without the results of the analyses: the registers that its blocks receive, the
choice of a frame pointer and the size of the area of preserved registers. -/
def withoutAnalyses (function : Function) : Function :=
  { function with
    blocks := function.blocks.map fun block => { block with liveIns := .empty }
    frame := { function.frame with framePointer? := none }
    calleeSavedSize := 0 }

theorem IsCanonicalOperand.isWritable {blocks : Nat} {operand : Operand}
    (canonical : IsCanonicalOperand blocks operand) : IsWritable blocks operand := by
  cases operand with
  | symbol name =>
      intro char member
      obtain ⟨noSpace, noMark⟩ := canonical char member
      simp_all [isWordChar]
  | block target => exact canonical
  | register | immediate | frameIndex => trivial

theorem IsCanonicalOperand.holdsEquals_eq_false {blocks : Nat} {operand : Operand}
    (canonical : IsCanonicalOperand blocks operand) : holdsEquals operand = false := by
  cases operand with
  | symbol name =>
      rw [holdsEquals, Bool.eq_false_iff, Ne, List.contains_iff_mem]
      intro member
      exact (canonical '=' member).2 (by decide)
  | _ => rfl

theorem IsCanonicalOperand.asWritten_eq {blocks : Nat} {operand : Operand}
    (canonical : IsCanonicalOperand blocks operand) : asWritten operand = operand := by
  cases operand with
  | register reg flags =>
      obtain ⟨isDef, isImplicit, isKilled, isDead⟩ := flags
      cases isDef <;> cases isDead <;> simp_all [IsCanonicalOperand, asWritten]
  | _ => rfl

section

variable {function : Function} (canonical : IsCanonical function)

include canonical

theorem IsCanonical.isWritableFunction : IsWritableFunction function where
  name := ⟨canonical.name_ne_nil, fun char member => (canonical.name_chars char member).1⟩
  noComment member := (canonical.name_chars ';' member).2 rfl
  label_ne_nil := canonical.label_ne_nil
  isLabel block isBlock char member := by
    have label := canonical.label_chars block isBlock char member
    simpa [isLabelChar, or_assoc] using label
  distinct := canonical.distinct
  instrs block isBlock instr isInstr :=
    { definitions := canonical.definitions block isBlock instr isInstr
      equals := fun _ operand isOperand =>
        (canonical.operands block isBlock instr isInstr operand isOperand).holdsEquals_eq_false
      operands := fun operand isOperand =>
        (canonical.operands block isBlock instr isInstr operand isOperand).isWritable }

theorem IsCanonical.functionAsWritten_eq :
    functionAsWritten function = withoutAnalyses function := by
  have blocksEq : function.blocks.map blockAsWritten =
      function.blocks.map fun block => { block with liveIns := .empty } := by
    apply List.map_congr_left
    intro block isBlock
    have instrsEq : block.instrs.map instrAsWritten = block.instrs := by
      refine (List.map_congr_left fun instr isInstr => ?_).trans (List.map_id _)
      have operandsEq : instr.operands.map asWritten = instr.operands :=
        (List.map_congr_left fun operand isOperand =>
          (canonical.operands block isBlock instr isInstr operand isOperand).asWritten_eq).trans
          (List.map_id _)
      rw [instrAsWritten, operandsEq]
      rfl
    rw [blockAsWritten, instrsEq]
  rw [functionAsWritten, blocksEq]
  rfl

end

/-- Printing canonical functions and reading the text gives the functions again. -/
theorem readModule_print_canonical {functions : List Function}
    (canonical : ∀ function ∈ functions, IsCanonical function) :
    readModule ("\n".intercalate (functions.map Function.print)) =
      .ok (functions.map withoutAnalyses) := by
  rw [readModule_print fun function member => (canonical function member).isWritableFunction]
  exact congrArg _ (List.map_congr_left fun function member =>
    (canonical function member).functionAsWritten_eq)

/-- A function that has passed the analyses, with operands of every kind. -/
def countdown : Function where
  name := "count@down"
  blocks := [
    { name := "entry"
      liveIns := RegisterSet.empty.insert .fp
      instrs := [
        { opcode := .mov16ri
          operands := [.register (.virtual 7) { isDef := true, isDead := true },
            .immediate Int64.minValue, .deadStatus] },
        { opcode := .jcc
          operands := [.block 1, .immediate Condition.lower.code,
            .register (.physical .sr) { isImplicit := true, isKilled := true }] }] },
    { name := "bb.1"
      instrs := [
        { opcode := .mov16rm, operands := [.define .fp, .frameIndex (-1), .immediate 3] },
        { opcode := .jal, operands := [.symbol "out:\x7d"] },
        { opcode := .jmp, operands := [.block 0] }] }]
  frame :=
    { stackSize := 18446744073709551615
      isAddressTaken := true
      offsetAdjustment := Int64.minValue
      objects := [{ size := 4, offset := -8 }]
      fixedObjects := [{ size := 2, offset := Int64.maxValue }]
      framePointer? := some true }
  calleeSaved := [.fp, Register.fp.byteAlias]
  calleeSavedSize := 4

theorem readModule_print_canonical_countdown :
    (∀ function ∈ [countdown, { name := "leaf" }], IsCanonical function) ∧
      readModule ("\n".intercalate ([countdown, { name := "leaf" }].map Function.print)) =
        .ok [withoutAnalyses countdown, { name := "leaf" }] := by
  have canonical : ∀ function ∈ [countdown, { name := "leaf" }], IsCanonical function := by
    decide +kernel
  exact ⟨canonical, readModule_print_canonical canonical⟩

end MachineCode.Text
