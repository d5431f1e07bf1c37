import MachineCode.Proofs.Encoding.Decoding
import MachineCode.Proofs.Frame.Finished
import MachineCode.Proofs.Frame.Stopping
import MachineCode.Proofs.Relaxation.Convergence
import MachineCode.Proofs.Relaxation.Solution
import MachineCode.Proofs.Text.Readable

/-!
# How compilation ends

A function that has been read is compiled, or compilation stops through a fault of the input. Each
pass leaves what the next one relies on: lowering leaves finished code (`AreFinished`), and
relaxation keeps it finished, so the encoder meets no pseudo and no frame slot.
-/

namespace MachineCode

open Relaxation

/-! ## Relaxation -/

namespace Relaxation

/-- A long form is plain, and it leads to the target of the branch. -/
theorem finished_of_mem_longForm {instr item : Instr} {target : BlockId} {long : List Instr}
    (expanded : longForm instr target = .ok long) (member : item ∈ long) :
    item.isPlain = true ∧ item.TargetsBelow (target + 1) := by
  have jump : Instr.TargetsBelow (target + 1) { opcode := .bi, operands := [.block target] } := by
    rintro _ ⟨⟩
    exact Nat.lt_succ_self target
  rcases longForm_eq_ok expanded with rfl | ⟨code, rfl⟩
  · cases List.mem_singleton.mp member
    exact ⟨rfl, jump⟩
  · rcases List.mem_cons.mp member with rfl | isJump
    · exact ⟨rfl, by rintro _ ⟨⟩⟩
    · cases List.mem_singleton.mp isJump
      exact ⟨rfl, jump⟩

end Relaxation

theorem AreFinished.expand {start finish : List Block} (finished : AreFinished start)
    (expands : Expands start finish) : AreFinished finish := by
  cases expands with
  | @expand site instr target long relaxable known outOfReach expanded =>
      have sameLength : (site.fill [instr]).length = (site.fill long).length := by
        rw [site.length_fill, site.length_fill]
      have below := (branchTarget_eq_ok_iff.mp known).2
      have targets := finished.targets
      rw [sameLength] at below
      rw [TargetsExist, sameLength] at targets
      constructor
      · exact Site.forall_mem_fill finished.plain
          fun item member => (finished_of_mem_longForm expanded member).1
      · refine Site.forall_mem_fill targets ?_
        intro item member other leads
        have atMost := (finished_of_mem_longForm expanded member).2 other leads
        exact Nat.lt_of_le_of_lt (Nat.le_of_lt_succ atMost) below

theorem AreFinished.expandAll {count : Nat} {start finish : List Block}
    (finished : AreFinished start) (run : Expansions count start finish) :
    AreFinished finish := by
  induction run with
  | refl blocks => exact finished
  | head first rest ih => exact ih (finished.expand first)

namespace FaultsOnly

theorem branchTarget {blockCount : Nat} {instr : Instr} (below : instr.TargetsBelow blockCount) :
    FaultsOnly (branchTarget blockCount instr) := by
  refine bind (operand instr 0) ?_
  intro found read
  cases found with
  | block target =>
      dsimp only
      rw [if_pos (below target (Instr.operand_eq_ok read))]
      exact ok target
  | _ => exact error rfl

theorem longForm (instr : Instr) (target : BlockId) : FaultsOnly (longForm instr target) := by
  unfold Relaxation.longForm
  split
  · exact ok _
  · refine bind (operand instr 1) fun found _ => ?_
    split
    · exact ok _
    · exact error rfl

theorem expansion? {sizes : List Nat} {instr : Instr} (below : instr.TargetsBelow sizes.length)
    (current : BlockId) (offset : Nat) : FaultsOnly (expansion? sizes current offset instr) := by
  unfold Relaxation.expansion?
  split
  · refine bind (branchTarget below) fun target _ => ?_
    split
    · exact ok none
    · exact map (longForm instr target) some
  · exact ok none

end FaultsOnly

/-- Relaxation stops only through faults of the input, if branches lead to existing blocks. -/
theorem relaxBranches_faultsOnlyOn {function : Function} (finished : AreFinished function.blocks) :
    relaxBranches.FaultsOnlyOn function := by
  intro reason stopped failed
  obtain ⟨_, blocks, run, block, isBlock, instr, isInstr, sizes, current, offset, sizesEq,
    undecided⟩ := relaxBranches_run_error failed
  have below := (finished.expandAll run).targets block isBlock instr isInstr
  rw [← sizesEq] at below
  exact FaultsOnly.expansion? below current offset reason undecided

/-! ## Encoding -/

namespace FaultsOnly

theorem registerEncoding (instr : Instr) (reg : Reg) : FaultsOnly (instr.registerEncoding reg) := by
  cases reg with
  | physical register => exact ok _
  | virtual number => exact error rfl

theorem nibble (instr : Instr) (position? : Option Nat) : FaultsOnly (instr.nibble position?) := by
  cases position? with
  | none => exact ok _
  | some position =>
      refine bind (operand instr position) ?_
      intro found _
      cases found with
      | register reg flags => exact registerEncoding instr reg
      | immediate value => exact ok _
      | _ => exact error rfl

theorem operandValue {instr : Instr} (plain : instr.isPlain = true) (position : Nat) :
    FaultsOnly (instr.operandValue position) := by
  refine bind (operand instr position) ?_
  intro found read
  cases found with
  | register reg flags => exact bind (registerEncoding instr reg) fun bits _ => ok _
  | immediate value => exact ok _
  | symbol name => exact ok _
  | block target => exact ok _
  | frameIndex index =>
      exact ((isPlain_iff.mp plain).2 position index (Instr.operand_eq_ok read)).elim

theorem memoryValue (instr : Instr) (position : Nat) : FaultsOnly (instr.memoryValue position) :=
  bind (registerOperand instr position) fun reg _ =>
    bind (registerEncoding instr reg) fun _ _ =>
      bind (immediateOperand instr (position + 1)) fun _ _ => ok _

theorem fieldValue {instr : Instr} (plain : instr.isPlain = true) (source : ValueSource) :
    FaultsOnly (instr.fieldValue source) := by
  cases source with
  | zero => exact ok _
  | operand position => exact operandValue plain position
  | memory position => exact bind (memoryValue instr position) fun bits _ => ok _

theorem encodeWord {instr : Instr} (plain : instr.isPlain = true) :
    FaultsOnly instr.encodeWord := by
  obtain ⟨code, sources, codeEq, sourcesEq⟩ := Instr.exists_encoding (isPlain_iff.mp plain).1
  rw [Instr.encodeWord, codeEq, sourcesEq]
  exact bind (nibble instr sources.source?) fun _ _ =>
    bind (nibble instr sources.destination?) fun _ _ =>
      bind (fieldValue plain sources.value) fun _ _ => ok _

theorem encode {instr : Instr} (plain : instr.isPlain = true) (order : ByteOrder) :
    FaultsOnly (instr.encode order) := by
  refine bind (bind (encodeWord plain) ?_) fun _ _ => ok _
  intro encoded _
  dsimp only
  split
  · exact bind (operandValue plain 1) fun _ _ => ok _
  · exact ok _

theorem encodeInstrs {instrs : List Instr} (plain : ∀ instr ∈ instrs, instr.isPlain = true)
    (order : ByteOrder) (start : Nat) : FaultsOnly (encodeInstrs order start instrs) := by
  induction instrs generalizing start with
  | nil => exact ok _
  | cons instr rest ih =>
      rw [List.forall_mem_cons] at plain
      exact bind (encode plain.1 order) fun encoded _ =>
        bind (ih plain.2 _) fun code _ => ok _

theorem encodeBlocks {blocks : List Block}
    (plain : ∀ block ∈ blocks, ∀ instr ∈ block.instrs, instr.isPlain = true) (order : ByteOrder)
    (start : Nat) : FaultsOnly (encodeBlocks order start blocks) := by
  induction blocks generalizing start with
  | nil => exact ok _
  | cons block rest ih =>
      rw [List.forall_mem_cons] at plain
      exact bind (encodeInstrs plain.1 order start) fun code _ =>
        bind (ih plain.2 _) fun stream _ => ok _

end FaultsOnly

/-! ## Compilation -/

/-- Branches of a function that has been read lead to its blocks. -/
theorem targetsExist_of_readModule {text : String} {functions : List Function} {function : Function}
    (read : Text.readModule text = .ok functions) (member : function ∈ functions) :
    TargetsExist function.blocks := by
  have readable := Text.isReadable_of_readFunctions
    (fun _ => Text.noComment_of_mem_sourceLines) read function member
  intro block isBlock instr isInstr target leads
  exact readable.operands block isBlock instr isInstr (.block target)
    (List.mem_of_getElem? leads)

theorem compileFunction_faultsOnlyOn (options : Options) {function : Function}
    (exist : TargetsExist function.blocks) : (compileFunction options).FaultsOnlyOn function := by
  refine .bind (.lowerFrame options function) ?_
  intro _ lowered lowerRan
  have finished : AreFinished lowered.blocks :=
    ⟨isPlain_of_run_lowerFrame lowerRan, targetsExist_of_run_lowerFrame exist lowerRan⟩
  refine .bind (relaxBranches_faultsOnlyOn finished) ?_
  intro stats relaxed relaxRan
  have relaxedFinished := finished.expandAll (relaxBranches_run_ok relaxRan).1
  refine .bind (.of_ok rfl) ?_
  rintro _ _ ⟨⟩
  refine .bind (.ofExcept (.encodeBlocks relaxedFinished.plain _ 0)) ?_
  intro stream _ _
  exact .of_ok rfl

/-- A function that has been read is compiled, or compilation stops through a fault of the input.
When lowering succeeds, it leaves no call sequence pseudo and no frame slot. -/
theorem compileFunction_inputFault {text : String} {functions : List Function}
    {function : Function} (read : Text.readModule text = .ok functions)
    (member : function ∈ functions) (options : Options) :
    (∀ reason stopped, (compileFunction options).run function = .error reason stopped →
        reason.isInputFault = true) ∧
      ∀ lowered, (lowerFrame options).run function = .ok () lowered →
        ∀ block ∈ lowered.blocks, ∀ instr ∈ block.instrs, instr.isPlain = true :=
  ⟨compileFunction_faultsOnlyOn options (targetsExist_of_readModule read member),
    fun _ => isPlain_of_run_lowerFrame⟩

/-- A function with a call sequence, a frame slot and a register that has not been allocated. -/
def unallocatedText : String :=
  "func @f \x7b\nstack_size 2\nobject size=2 offset=-4\na:\n ADJCALLSTACKDOWN 4\n" ++
    " ADJCALLSTACKUP 4, 0\n cg = MOV16rm fi#0, 0\n PUSH16r %1\n JMP ^a\n RET\n\x7d"

def unallocated : Function where
  name := "f"
  blocks := [
    { name := "a"
      instrs := [
        { opcode := .adjCallStackDown, operands := [.immediate 4] },
        { opcode := .adjCallStackUp, operands := [.immediate 4, .immediate 0] },
        { opcode := .mov16rm
          operands := [.define .cg, .frameIndex 0, .immediate 0] },
        { opcode := .push16r, operands := [.register (.virtual 1) {}] },
        { opcode := .jmp, operands := [.block 0] },
        { opcode := .ret }] }]
  frame := { stackSize := 2, objects := [{ size := 2, offset := -4 }] }

def unallocatedLowered : Function :=
  { unallocated with
    blocks := [
      { name := "a"
        instrs := [
          .lowerStack 2,
          { opcode := .mov16rm
            operands := [.define .cg, .use .sp, .immediate 0] },
          { opcode := .push16r, operands := [.register (.virtual 1) {}] },
          .raiseStack 2,
          { opcode := .jmp, operands := [.block 0] },
          { opcode := .ret }] }]
    frame := { unallocated.frame with framePointer? := some false } }

theorem compileFunction_inputFault_unallocated :
    Text.readModule unallocatedText = .ok [unallocated] ∧
      (compileFunction {}).run unallocated =
        .error (.unfinalized .push16r .virtualRegister) unallocatedLowered ∧
      (CodeError.unfinalized .push16r .virtualRegister).isInputFault = true ∧
      (lowerFrame {}).run unallocated = .ok () unallocatedLowered ∧
      ∀ block ∈ unallocatedLowered.blocks, ∀ instr ∈ block.instrs, instr.isPlain = true := by
  have read : Text.readModule unallocatedText = .ok [unallocated] := by decide +kernel
  have failed : (compileFunction {}).run unallocated =
      .error (.unfinalized .push16r .virtualRegister) unallocatedLowered := by decide +kernel
  have ran : (lowerFrame {}).run unallocated = .ok () unallocatedLowered := by decide +kernel
  obtain ⟨faults, plain⟩ := compileFunction_inputFault read (List.mem_singleton.mpr rfl) {}
  exact ⟨read, failed, faults _ _ failed, ran, plain _ ran⟩

end MachineCode
