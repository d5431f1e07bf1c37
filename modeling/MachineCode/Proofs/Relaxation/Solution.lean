import MachineCode.Proofs.Relaxation.Choice
import Mathlib.Data.Finset.Card

/-!
# The least solution

A set of short branches solves the reach constraints of the code if, once these branches are
expanded, all others are within 511 bytes of their targets. Relaxation computes the least such
set. Growing one branch can push any other out of reach, but never brings one closer, so a branch
that has to be expanded stays so: this is why the order of the scans does not matter.
-/

namespace MachineCode

namespace Relaxation

theorem isRelaxable_of_block {instr : Instr} {target : BlockId}
    (short : instr.opcode = .jcc ∨ instr.opcode = .jmp)
    (targets : instr.operands[0]? = some (.block target)) : isRelaxable instr = true := by
  obtain ⟨opcode, operands⟩ := instr
  cases operands with
  | nil => contradiction
  | cons operand rest =>
      cases targets
      rcases short with rfl | rfl
      · rfl
      · rfl

/-- The long form of a branch to a block is the one that the scan inserts. -/
theorem longForm?_eq_some {instr : Instr} {target : BlockId} {long : List Instr}
    (relaxable : isRelaxable instr = true) (targets : instr.operands[0]? = some (.block target))
    (expanded : longForm instr target = .ok long) : instr.longForm? = some long := by
  obtain ⟨opcode, operands⟩ := instr
  cases operands with
  | nil => contradiction
  | cons operand rest =>
      cases targets
      rcases opcode_of_isRelaxable relaxable with rfl | rfl
      · cases rest with
        | nil => contradiction
        | cons condition rest =>
            cases condition with
            | immediate code =>
                cases known : Condition.ofCode? code with
                | none =>
                    simp [longForm, Instr.operand, invertCondition?, Operand.immediate?, known,
                      bind, Except.bind] at expanded
                | some condition =>
                    simp [longForm, Instr.operand, invertCondition?, Operand.immediate?, known,
                      bind, Except.bind, pure, Except.pure] at expanded
                    subst long
                    simp [Instr.longForm?, known, skippedBytes]
            | register reg flags => contradiction
            | block other => contradiction
            | symbol name => contradiction
            | frameIndex index => contradiction
      · cases expanded
        rfl

/-- Every short branch that is not chosen is within 511 bytes of its target in the code in which
the chosen ones are expanded. -/
def Solves (chosen : Finset Position) (blocks : List Block) : Prop :=
  ∀ position instr target, Layout.instr? blocks position = some instr →
    isRelaxable instr = true → position ∉ chosen →
    instr.operands[0]? = some (.block target) → target < blocks.length →
      Layout.distance (Choice.expandBlocks chosen blocks) (Choice.moved chosen blocks position)
        target ≤ 511

/-- What the expansions of a run amount to: a set of short branches that have long forms, none of
which any solution can do without. -/
structure Forced (blocks : List Block) (chosen : Finset Position) : Prop where
  candidate : ∀ position ∈ chosen, ∃ instr, Layout.instr? blocks position = some instr ∧
    isRelaxable instr = true
  hasLong : Choice.HasLongForms chosen blocks
  least : ∀ solution, Solves solution blocks → chosen ⊆ solution

theorem forced_empty (blocks : List Block) : Forced blocks ∅ where
  candidate := by simp
  hasLong := by simp [Choice.HasLongForms]
  least := by simp

/-- Expanding one more branch of the expanded code is forced, too. -/
theorem Forced.expand {blocks finish : List Block} {chosen : Finset Position}
    (forced : Forced blocks chosen) (step : Expands (Choice.expandBlocks chosen blocks) finish) :
    ∃ position, position ∉ chosen ∧ Forced blocks (insert position chosen) ∧
      finish = Choice.expandBlocks (insert position chosen) blocks := by
  generalize codeEq : Choice.expandBlocks chosen blocks = code at step
  cases step with
  | @expand site instr target long relaxable known outOfReach expanded =>
      obtain ⟨original, rfl, notChosen, rfl⟩ :=
        Choice.exists_expandSite forced.hasLong relaxable codeEq
      obtain ⟨targets, inBounds⟩ := branchTarget_eq_ok_iff.mp known
      have hasLong := longForm?_eq_some relaxable targets expanded
      have found := original.instr?_fill_cons instr []
      refine ⟨original.position, notChosen, ⟨?_, ?_, ?_⟩, ?_⟩
      · intro position member
        rcases Finset.mem_insert.mp member with rfl | member
        · exact ⟨instr, found, relaxable⟩
        · exact forced.candidate position member
      · intro position member other otherFound
        rcases Finset.mem_insert.mp member with rfl | member
        · rw [found, Option.some.injEq] at otherFound
          rw [← otherFound, hasLong]
          rfl
        · exact forced.hasLong position member other otherFound
      · intro solution solves
        have subset := forced.least solution solves
        apply Finset.insert_subset _ subset
        by_contra notSolved
        have near := solves original.position instr target found relaxable notSolved targets
          (by simpa [Choice.expandSite, Choice.expandBlocks] using inBounds)
        rw [Choice.expandBlocks_fill, Choice.expandInstr_of_notMem notSolved,
          Choice.moved_fill] at near
        have farther := Choice.distance_expandSite_mono subset original instr target
        omega
      · rw [Choice.expandBlocks_fill, Choice.expandSite_insert,
          Choice.expandInstr_insert_self _ _ hasLong]

theorem Forced.expandAll {blocks start finish : List Block} {chosen : Finset Position}
    {count : Nat} (forced : Forced blocks chosen)
    (startEq : start = Choice.expandBlocks chosen blocks)
    (run : Expansions count start finish) :
    ∃ final, Forced blocks final ∧ finish = Choice.expandBlocks final blocks ∧
      final.card = chosen.card + count := by
  induction run generalizing chosen with
  | refl code => exact ⟨chosen, forced, startEq, rfl⟩
  | head first rest ih =>
      subst startEq
      obtain ⟨position, notChosen, forcedNext, middleEq⟩ := forced.expand first
      obtain ⟨final, forcedFinal, finishEq, cardEq⟩ := ih forcedNext middleEq
      refine ⟨final, forcedFinal, finishEq, ?_⟩
      rw [cardEq, Finset.card_insert_of_notMem notChosen]
      omega

/-- In code that is small or in which a scan would be quiet, short branches are in reach. -/
theorem distance_le_of_settled {blocks : List Block} {position : Position} {instr : Instr}
    {target : BlockId}
    (settled : totalSize (blocks.map Block.size) < reach ∨ AllInReach blocks)
    (found : Layout.instr? blocks position = some instr) (relaxable : isRelaxable instr = true)
    (targets : instr.operands[0]? = some (.block target)) (known : target < blocks.length) :
    Layout.distance blocks position target ≤ 511 := by
  rcases settled with small | inReach
  · have bound := Layout.distance_le_totalSize (Layout.lt_length_of_instr? found) known
    exact Nat.le_of_lt_succ (Nat.lt_of_le_of_lt bound small)
  · obtain ⟨other, otherKnown, near⟩ := inReach position instr found relaxable
    rw [branchTarget_eq_ok_iff.mpr ⟨targets, known⟩, Except.ok.injEq] at otherKnown
    rwa [otherKnown]

theorem solves_of_settled {chosen : Finset Position} {blocks : List Block}
    (settled : totalSize ((Choice.expandBlocks chosen blocks).map Block.size) < reach ∨
      AllInReach (Choice.expandBlocks chosen blocks)) : Solves chosen blocks := by
  intro position instr target found relaxable notChosen targets known
  obtain ⟨site, rfl, rfl⟩ := Site.exists_fill_of_instr? found
  rw [Choice.expandBlocks_fill, Choice.expandInstr_of_notMem notChosen] at settled ⊢
  rw [Choice.moved_fill]
  apply distance_le_of_settled settled (Site.instr?_fill_cons _ instr []) relaxable targets
  simpa [Choice.expandSite, Choice.expandBlocks] using known

end Relaxation

open Relaxation

/-- After relaxation, every short branch to a block is within 511 bytes of it. -/
theorem relaxBranches_inReach {function result : Function} {stats : Stats}
    (ran : relaxBranches.run function = .ok stats result) {position : Position} {instr : Instr}
    {target : BlockId} (found : Layout.instr? result.blocks position = some instr)
    (short : instr.opcode = .jcc ∨ instr.opcode = .jmp)
    (targets : instr.operands[0]? = some (.block target))
    (known : target < result.blocks.length) :
    Layout.distance result.blocks position target ≤ 511 := by
  obtain ⟨-, settled, -⟩ := relaxBranches_run_ok ran
  exact distance_le_of_settled settled found (isRelaxable_of_block short targets) targets known

/-- Five blocks in which expanding the branch of the second pushes the jump of the first out of
reach, while the branch of the last stays short. -/
def cascade (first second : List Instr) : Function where
  name := "cascade"
  blocks :=
    let load : Instr :=
      { opcode := .ldImm64, operands := [.define .fp, .immediate 0] }
    [{ name := "start", instrs := first },
      { name := "test", instrs := second },
      { name := "body", instrs := .copy .fp .sp :: List.replicate 63 load },
      { name := "near", instrs := [load, load] },
      { name := "far", instrs := [
          { opcode := .jcc, operands := [.block 3, .immediate Condition.equal.code] },
          { opcode := .ret }] }]

/-- The code with the jump and the branch in their short forms. -/
def shortCascade : Function :=
  cascade [{ opcode := .jmp, operands := [.block 3] }]
    [{ opcode := .jcc, operands := [.block 4, .immediate Condition.lower.code] }]

/-- The code with the jump and the branch in their long forms. -/
def longCascade : Function :=
  cascade [{ opcode := .bi, operands := [.block 3] }]
    [{ opcode := .jcc, operands := [.immediate 4, .immediate Condition.higherOrSame.code] },
      { opcode := .bi, operands := [.block 4] }]

theorem run_relaxBranches_shortCascade :
    relaxBranches.run shortCascade = .ok { expanded := 2, iterations := 3 } longCascade := by
  decide +kernel

theorem relaxBranches_inReach_cascade :
    relaxBranches.run shortCascade = .ok { expanded := 2, iterations := 3 } longCascade ∧
      Layout.distance longCascade.blocks ⟨4, 0⟩ 3 ≤ 511 :=
  ⟨run_relaxBranches_shortCascade,
    relaxBranches_inReach run_relaxBranches_shortCascade (by rfl) (.inl rfl) rfl (by decide)⟩

/-- Relaxation expands the least set of short branches whose expansion leaves all others within
511 bytes of their targets, and counts its members. -/
theorem relaxBranches_least {function result : Function} {stats : Stats}
    (ran : relaxBranches.run function = .ok stats result) :
    ∃ chosen : Finset Position,
      (∀ position ∈ chosen, ∃ instr, Layout.instr? function.blocks position = some instr ∧
        isRelaxable instr = true) ∧
      result.blocks = Choice.expandBlocks chosen function.blocks ∧
      stats.expanded = chosen.card ∧
      Solves chosen function.blocks ∧
      ∀ other, Solves other function.blocks → chosen ⊆ other := by
  obtain ⟨run, settled, -⟩ := relaxBranches_run_ok ran
  obtain ⟨chosen, forced, blocksEq, cardEq⟩ := (forced_empty function.blocks).expandAll
    (Choice.expandBlocks_empty function.blocks).symm run
  rw [Finset.card_empty, Nat.zero_add] at cardEq
  rw [blocksEq] at settled
  exact ⟨chosen, forced.candidate, blocksEq, cardEq.symm, solves_of_settled settled,
    forced.least⟩

theorem relaxBranches_least_cascade :
    relaxBranches.run shortCascade = .ok { expanded := 2, iterations := 3 } longCascade ∧
      ∃ chosen : Finset Position,
        (∀ position ∈ chosen, ∃ instr, Layout.instr? shortCascade.blocks position = some instr ∧
          isRelaxable instr = true) ∧
        longCascade.blocks = Choice.expandBlocks chosen shortCascade.blocks ∧
        2 = chosen.card ∧
        Solves chosen shortCascade.blocks ∧
        ∀ other, Solves other shortCascade.blocks → chosen ⊆ other :=
  ⟨run_relaxBranches_shortCascade, relaxBranches_least run_relaxBranches_shortCascade⟩

end MachineCode
