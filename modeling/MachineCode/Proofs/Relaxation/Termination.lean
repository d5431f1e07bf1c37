import MachineCode.Proofs.Relaxation.Convergence
import MachineCode.Proofs.Relaxation.Solution

/-!
# Relaxation comes to an end

A scan that is not the last one has expanded something, so there is at most one scan more than there
are expansions. A scan decides for every short branch that leads to an existing block on one of the
six conditions, whatever the sizes of the blocks are by then, and what it inserts are no short
branches. So relaxation succeeds if all short branches of the function are of this kind.
-/

namespace MachineCode

namespace Relaxation

/-- A branch that has a long form: it leads to one of the blocks, and if it is conditional, its
condition is one of the six. -/
structure IsExpandable (blockCount : Nat) (instr : Instr) : Prop where
  target : ∃ target, instr.operands[0]? = some (.block target) ∧ target < blockCount
  condition : instr.opcode = .jcc →
    ∃ code, instr.operands[1]? = some (.immediate code) ∧ 0 ≤ code ∧ code ≤ 5

/-- Every short branch has a long form. -/
def AllExpandable (blocks : List Block) : Prop :=
  ∀ block ∈ blocks, ∀ instr ∈ block.instrs,
    isRelaxable instr = true → IsExpandable blocks.length instr

/-! ## What a scan can decide -/

theorem exists_ofCode?_eq_some {code : Int64} (least : 0 ≤ code) (greatest : code ≤ 5) :
    ∃ condition, Condition.ofCode? code = some condition := by
  have known : ∀ value : Fin 6, (Condition.ofCode? (.ofInt value)).isSome = true := by decide
  have nonnegative : 0 ≤ code.toInt := Int64.le_iff_toInt_le.mp least
  have atMost : code.toInt ≤ 5 := Int64.le_iff_toInt_le.mp greatest
  have found := known ⟨code.toInt.toNat, by omega⟩
  rw [Int.toNat_of_nonneg nonnegative, Int64.ofInt_toInt] at found
  exact Option.isSome_iff_exists.mp found

theorem exists_longForm_eq_ok {instr : Instr} {blockCount : Nat}
    (relaxable : isRelaxable instr = true) (expandable : IsExpandable blockCount instr)
    (target : BlockId) : ∃ long, longForm instr target = .ok long := by
  unfold longForm
  rcases opcode_of_isRelaxable relaxable with conditional | jump
  · obtain ⟨code, second, least, greatest⟩ := expandable.condition conditional
    obtain ⟨condition, known⟩ := exists_ofCode?_eq_some least greatest
    have inverted :
        invertCondition? (.immediate code) = some (.immediate condition.inverse.code) := by
      simp [invertCondition?, Operand.immediate?, known]
    have read : instr.operand 1 = .ok (.immediate code) := by
      rw [Instr.operand, second]
    simp [conditional, read, inverted, bind, Except.bind, pure, Except.pure]
  · rw [if_pos jump]
    exact ⟨_, rfl⟩

theorem exists_expansion?_eq_ok {sizes : List Nat} {instr : Instr}
    (expandable : isRelaxable instr = true → IsExpandable sizes.length instr) (current : BlockId)
    (offset : Nat) : ∃ decision, expansion? sizes current offset instr = .ok decision := by
  unfold expansion?
  split
  next relaxable =>
    obtain ⟨target, known⟩ := (expandable relaxable).target
    obtain ⟨long, expanded⟩ := exists_longForm_eq_ok relaxable (expandable relaxable) target
    rw [branchTarget_eq_ok_iff.mpr known]
    dsimp only [bind, Except.bind]
    split
    next => exact ⟨none, rfl⟩
    next => exact ⟨some long, by rw [expanded]; rfl⟩
  next => exact ⟨none, rfl⟩

/-! ## What a scan cannot decide -/

theorem branchTarget_ne_didNotConverge (blockCount : Nat) (instr : Instr) (scans : Nat) :
    branchTarget blockCount instr ≠ .error (.relaxationDidNotConverge scans) := by
  unfold branchTarget Instr.operand
  cases instr.operands[0]? with
  | none => simp [bind, Except.bind]
  | some operand =>
      cases operand with
      | block target =>
          simp only [bind, Except.bind]
          split <;> simp
      | _ => simp [bind, Except.bind, Instr.malformed]

theorem longForm_ne_didNotConverge (instr : Instr) (target : BlockId) (scans : Nat) :
    longForm instr target ≠ .error (.relaxationDidNotConverge scans) := by
  unfold longForm Instr.operand
  split
  next => simp [pure, Except.pure]
  next =>
    cases instr.operands[1]? with
    | none => simp [bind, Except.bind]
    | some operand =>
        simp only [bind, Except.bind]
        split <;> simp [pure, Except.pure, Instr.malformed]

/-- What is wrong with a branch is never that the scans have been used up. -/
theorem expansion?_ne_didNotConverge (sizes : List Nat) (current : BlockId) (offset : Nat)
    (instr : Instr) (scans : Nat) :
    expansion? sizes current offset instr ≠ .error (.relaxationDidNotConverge scans) := by
  intro failed
  unfold expansion? at failed
  split at failed
  next =>
    cases known : branchTarget sizes.length instr with
    | error reason =>
        rw [known] at failed
        cases failed
        exact branchTarget_ne_didNotConverge _ _ _ known
    | ok target =>
        rw [known] at failed
        dsimp only [bind, Except.bind] at failed
        split at failed
        next => contradiction
        next => exact longForm_ne_didNotConverge instr target scans (error_of_map_error failed)
  next => contradiction

/-! ## Expansion leaves every short branch expandable -/

theorem isRelaxable_of_mem_longForm {instr item : Instr} {target : BlockId} {long : List Instr}
    (expanded : longForm instr target = .ok long) (member : item ∈ long) :
    isRelaxable item = false := by
  have noneLeft := List.countP_eq_zero.mp (countP_isRelaxable_longForm expanded) item member
  exact Bool.eq_false_iff.mpr noneLeft

theorem AllExpandable.expand {start finish : List Block} (expandable : AllExpandable start)
    (expands : Expands start finish) : AllExpandable finish := by
  cases expands with
  | @expand site instr target long relaxable known outOfReach expanded =>
      have sameLength : (site.fill [instr]).length = (site.fill long).length := by
        rw [site.length_fill, site.length_fill]
      rw [AllExpandable, sameLength] at expandable
      apply Site.forall_mem_fill expandable
      intro item member itemRelaxable
      rw [isRelaxable_of_mem_longForm expanded member] at itemRelaxable
      contradiction

theorem AllExpandable.expandAll {count : Nat} {start finish : List Block}
    (expandable : AllExpandable start) (run : Expansions count start finish) :
    AllExpandable finish := by
  induction run with
  | refl blocks => exact expandable
  | head first rest ih => exact ih (expandable.expand first)

/-! ## How many scans there are -/

/-- Every scan but the last one has expanded something. -/
theorem iterations_scanUntilQuiet {limit : Nat} {sizes : List Nat} {stats last : Stats}
    {function result : Function}
    (ran : (scanUntilQuiet sizes stats limit).run function = .ok last result) :
    last.iterations + stats.expanded ≤ stats.iterations + last.expanded + 1 := by
  induction limit generalizing sizes stats function with
  | zero => contradiction
  | succ limit ih =>
      rw [scanUntilQuiet] at ran
      obtain ⟨scan, scanned, -, ran⟩ := Pass.run_bind_eq_ok ran
      split at ran
      next quiet =>
        cases ran
        dsimp only
        omega
      next busy =>
        have fewer := ih ran
        dsimp only at fewer
        omega

end Relaxation

open Relaxation

theorem iterations_relaxBranches {stats : Stats} {function result : Function}
    (ran : relaxBranches.run function = .ok stats result) :
    stats.iterations ≤ stats.expanded + 1 := by
  rw [run_relaxBranches] at ran
  split at ran
  next =>
    cases ran
    exact Nat.zero_le _
  next =>
    have scans := iterations_scanUntilQuiet ran
    dsimp only at scans
    omega

/-- Relaxation converges. It never uses up its scans; if it succeeds, it has made at most one scan
more than expansions, and no more expansions than there were short branches; and it succeeds if
every short branch leads to an existing block on one of the six conditions. -/
theorem relaxBranches_converges (function : Function) :
    (∀ scans stopped,
      relaxBranches.run function ≠ .error (.relaxationDidNotConverge scans) stopped) ∧
    (∀ stats relaxed, relaxBranches.run function = .ok stats relaxed →
      stats.iterations ≤ stats.expanded + 1 ∧
        stats.expanded ≤ candidateCount function.blocks) ∧
    (AllExpandable function.blocks →
      ∃ stats relaxed, relaxBranches.run function = .ok stats relaxed) := by
  refine ⟨?_, ?_, ?_⟩
  · intro scans stopped failed
    obtain ⟨_, _, _, _, _, instr, _, sizes, current, offset, _, undecided⟩ :=
      relaxBranches_run_error failed
    exact expansion?_ne_didNotConverge sizes current offset instr scans undecided
  · intro stats relaxed ran
    have counted := (relaxBranches_run_ok ran).1.candidateCount
    exact ⟨iterations_relaxBranches ran, by omega⟩
  · intro expandable
    cases ran : relaxBranches.run function with
    | ok stats relaxed => exact ⟨stats, relaxed, rfl⟩
    | error reason stopped =>
        obtain ⟨_, blocks, run, block, isBlock, instr, isInstr, sizes, current, offset,
          sizesEq, undecided⟩ := relaxBranches_run_error ran
        have instrExpandable := expandable.expandAll run block isBlock instr isInstr
        rw [← sizesEq] at instrExpandable
        obtain ⟨decision, decided⟩ := exists_expansion?_eq_ok instrExpandable current offset
        rw [decided] at undecided
        contradiction

theorem allExpandable_shortCascade : AllExpandable shortCascade.blocks := by
  have candidates : (shortCascade.blocks.flatMap Block.instrs).filter isRelaxable = [
      { opcode := .jmp, operands := [.block 3] },
      { opcode := .jcc, operands := [.block 4, .immediate Condition.lower.code] },
      { opcode := .jcc, operands := [.block 3, .immediate Condition.equal.code] }] := by
    decide +kernel
  intro block isBlock instr isInstr relaxable
  have isCandidate : instr ∈ (shortCascade.blocks.flatMap Block.instrs).filter isRelaxable :=
    List.mem_filter.mpr ⟨List.mem_flatMap.mpr ⟨block, isBlock, isInstr⟩, relaxable⟩
  rw [candidates] at isCandidate
  simp only [List.mem_cons, List.not_mem_nil, or_false] at isCandidate
  rcases isCandidate with rfl | rfl | rfl
  · exact ⟨⟨3, rfl, by decide⟩, by simp⟩
  · exact ⟨⟨4, rfl, by decide⟩, fun _ => ⟨_, rfl, by decide, by decide⟩⟩
  · exact ⟨⟨3, rfl, by decide⟩, fun _ => ⟨_, rfl, by decide, by decide⟩⟩

/-- A branch that is pushed out of reach by another one takes a scan of its own: the bound on the
number of scans is met. -/
theorem relaxBranches_converges_cascade :
    AllExpandable shortCascade.blocks ∧
      (∃ stats relaxed, relaxBranches.run shortCascade = .ok stats relaxed) ∧
      relaxBranches.run shortCascade = .ok { expanded := 2, iterations := 3 } longCascade ∧
      3 ≤ 2 + 1 ∧ 2 ≤ candidateCount shortCascade.blocks := by
  obtain ⟨-, counted, succeeds⟩ := relaxBranches_converges shortCascade
  exact ⟨allExpandable_shortCascade, succeeds allExpandable_shortCascade,
    run_relaxBranches_shortCascade, counted _ _ run_relaxBranches_shortCascade⟩

end MachineCode
