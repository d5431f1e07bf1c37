import MachineCode.Proofs.Fault
import MachineCode.Proofs.Relaxation.Expansion

/-!
# Relaxation converges

An expansion takes one short branch away and makes no new one, so a run of expansions is as long
as the number of short branches falls. A scan that is not the last one expands something, and there
is one scan more than there are short branches. Relaxation therefore never runs out of scans: when
it stops, it is because a branch cannot be expanded.
-/

namespace MachineCode

namespace Relaxation

/-! ## Long forms -/

/-- The long form of a branch: a long jump, which a conditional branch skips. -/
theorem longForm_eq_ok {instr : Instr} {target : BlockId} {long : List Instr}
    (expanded : longForm instr target = .ok long) :
    long = [{ opcode := .bi, operands := [.block target] }] ∨
      ∃ code, long = [
        { opcode := .jcc, operands := [.immediate skippedBytes, .immediate code] },
        { opcode := .bi, operands := [.block target] }] := by
  unfold longForm at expanded
  split at expanded
  · cases expanded
    exact .inl rfl
  · right
    cases found : instr.operand 1 with
    | error reason => simp [found, bind, Except.bind] at expanded
    | ok operand =>
        simp only [found, bind, Except.bind] at expanded
        split at expanded
        next condition inverted =>
          obtain ⟨original, -, rfl⟩ := Option.map_eq_some_iff.mp inverted
          cases expanded
          exact ⟨original.inverse.code, rfl⟩
        next => contradiction

theorem countP_isRelaxable_longForm {instr : Instr} {target : BlockId} {long : List Instr}
    (expanded : longForm instr target = .ok long) : long.countP isRelaxable = 0 := by
  rcases longForm_eq_ok expanded with rfl | ⟨code, rfl⟩
  · rfl
  · rfl

/-! ## Counting short branches -/

theorem candidateCount_fill (site : Site) (instrs : List Instr) :
    candidateCount (site.fill instrs) =
      candidateCount (site.fill []) + instrs.countP isRelaxable := by
  simp only [candidateCount, Site.fill, List.flatMap_append, List.flatMap_cons, List.countP_append,
    List.countP_nil]
  omega

theorem Expands.candidateCount {start finish : List Block} (expands : Expands start finish) :
    candidateCount start = candidateCount finish + 1 := by
  cases expands with
  | @expand site instr target long relaxable _ _ expanded =>
      rw [candidateCount_fill site [instr], candidateCount_fill site long,
        countP_isRelaxable_longForm expanded, List.countP_singleton, if_pos relaxable]

/-- Every expansion takes a short branch away. -/
theorem Expansions.candidateCount {count : Nat} {start finish : List Block}
    (run : Expansions count start finish) :
    candidateCount start = candidateCount finish + count := by
  induction run with
  | refl blocks => rfl
  | head first rest ih => rw [first.candidateCount, ih, Nat.add_assoc]

/-! ## Why a scan stops -/

theorem error_of_map_error {first second : Type} {checked : Except CodeError first}
    {change : first → second} {reason : CodeError} (failed : checked.map change = .error reason) :
    checked = .error reason := by
  cases checked with
  | error cause =>
      cases failed
      rfl
  | ok value => contradiction

/-- A scan stops at an instruction for which it cannot decide, with a table of all blocks. -/
theorem exists_expansion?_of_scan_error {blocks : List Block} {reason : CodeError}
    (failed : (scanBlocks (blocks.map Block.size) blocks).outcome = .error reason) :
    ∃ block ∈ blocks, ∃ instr ∈ block.instrs, ∃ sizes current offset,
      sizes.length = blocks.length ∧
        expansion? sizes current offset instr = .error reason := by
  obtain ⟨⟨current, scan⟩, sizesEq, block, isBlock, blockFailed⟩ :=
    Sweep.exists_of_run_error (fun state => state.2.sizes.length = blocks.length)
      (List.length_map _) (fun _ holds _ _ _ scanned => (scanBlock_sizes scanned).trans holds)
      (error_of_map_error failed)
  obtain ⟨cursor, cursorEq, instr, isInstr, instrFailed⟩ :=
    Sweep.exists_of_run_error (fun cursor => cursor.scan.sizes.length = blocks.length)
      sizesEq (fun _ holds _ _ _ stepped => (scanInstr_sizes stepped).trans holds)
      (error_of_map_error blockFailed)
  refine ⟨block, isBlock, instr, isInstr, cursor.scan.sizes, current, cursor.offset, cursorEq, ?_⟩
  unfold scanInstr at instrFailed
  split at instrFailed
  next cause undecided =>
    cases instrFailed
    exact undecided
  next => contradiction
  next => contradiction

/-- When repeated scans stop, it is in a scan of what expansions have left, if there are more scans
than short branches. -/
theorem exists_scan_of_run_error {limit : Nat} {stats : Stats} {function stopped : Function}
    {reason : CodeError} (enough : candidateCount function.blocks < limit)
    (failed : (scanUntilQuiet (function.blocks.map Block.size) stats limit).run function =
      .error reason stopped) :
    ∃ count blocks, Expansions count function.blocks blocks ∧
      (scanBlocks (blocks.map Block.size) blocks).outcome = .error reason := by
  induction limit generalizing stats function with
  | zero => contradiction
  | succ limit ih =>
      rw [scanUntilQuiet] at failed
      rcases Pass.run_bind_eq_error failed with here | ⟨scan, scanned, swept, later⟩
      · rw [run_visitBlocks_scanBody (List.length_map _)] at here
        exact ⟨0, function.blocks, .refl _, Pass.run_sweepBlocks_eq_error here⟩
      · rw [run_visitBlocks_scanBody (List.length_map _)] at swept
        obtain ⟨outcome, scannedEq⟩ := Pass.run_sweepBlocks_eq_ok swept
        have blocksEq : scanned.blocks = (scanBlocks _ function.blocks).items :=
          congrArg Function.blocks scannedEq
        obtain ⟨sizes, run, -⟩ := scanBlocks_progress outcome
        rw [← blocksEq] at sizes run
        split at later
        next => contradiction
        next busy =>
          rw [sizes] at later
          have fewer := run.candidateCount
          obtain ⟨count, blocks, rest, scanFailed⟩ := ih (by omega) later
          exact ⟨scan.expanded + count, blocks, run.trans rest, scanFailed⟩

end Relaxation

open Relaxation in
/-- When relaxation stops, it is at an instruction of expanded code for which a scan cannot
decide. -/
theorem relaxBranches_run_error {function stopped : Function} {reason : CodeError}
    (failed : relaxBranches.run function = .error reason stopped) :
    ∃ count blocks, Expansions count function.blocks blocks ∧
      ∃ block ∈ blocks, ∃ instr ∈ block.instrs, ∃ sizes current offset,
        sizes.length = blocks.length ∧
          expansion? sizes current offset instr = .error reason := by
  rw [run_relaxBranches] at failed
  split at failed
  · contradiction
  · obtain ⟨count, blocks, run, scanFailed⟩ :=
      exists_scan_of_run_error (Nat.lt_succ_self _) failed
    exact ⟨count, blocks, run, exists_expansion?_of_scan_error scanFailed⟩

end MachineCode
