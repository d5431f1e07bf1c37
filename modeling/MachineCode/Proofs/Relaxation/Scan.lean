import MachineCode.Proofs.Checked
import MachineCode.Proofs.Walking
import MachineCode.Relaxation

/-!
# The scan for far branches

A scan walks through the blocks by position, replaces branches and grows the sizes of blocks in a
table. Here it is described as a sweep over the instructions of all blocks, without positions, and
the two are shown to be the same as long as the table has an entry for each block
(`run_visitBlocks_scanBody`).
-/

namespace MachineCode

namespace Relaxation

/-! ## The sweep -/

/-- The distance from a branch, at an offset in one block, to the start of a target block. -/
def displacement (sizes : List Nat) (current : BlockId) (offset : Nat) (target : BlockId) : Int :=
  if target ≤ current then
    offset + totalSize ((sizes.take current).drop target)
  else
    (totalSize ((sizes.take target).drop current) : Int) - offset

/-- What a scan puts in the place of an instruction, or nothing if the instruction stays. -/
def expansion? (sizes : List Nat) (current : BlockId) (offset : Nat) (instr : Instr) :
    Except CodeError (Option (List Instr)) := do
  if isRelaxable instr then
    let target ← branchTarget sizes.length instr
    if fitsShort (displacement sizes current offset target) then
      pure none
    else
      some <$> longForm instr target
  else
    pure none

/-- Scan one instruction of a block. What a branch adds to the offset and to the size of its block
is known from its kind. -/
def scanInstr (current : BlockId) (cursor : Cursor) (instr : Instr) : Sweep Instr Cursor :=
  match expansion? cursor.scan.sizes current cursor.offset instr with
  | .error reason => .stopped [instr] reason
  | .ok none =>
      let size := if isRelaxable instr then shortSize else instr.size
      .done [instr] { cursor with offset := cursor.offset + size }
  | .ok (some long) =>
      .done long {
        scan := {
          sizes := cursor.scan.sizes.modify current fun size =>
            size + (longSize instr.opcode - shortSize)
          expanded := cursor.scan.expanded + 1 }
        offset := cursor.offset + longSize instr.opcode }

/-- Scan one block. The state holds the position of the block. -/
def scanBlock (state : BlockId × Scan) (block : Block) : Sweep Block (BlockId × Scan) :=
  let (current, scan) := state
  let body := Sweep.run (scanInstr current) { scan } block.instrs
  { items := [{ block with instrs := body.items }]
    outcome := body.outcome.map fun cursor => (current + 1, cursor.scan) }

def scanBlocks (sizes : List Nat) (blocks : List Block) : Sweep Block Scan :=
  let scanned := Sweep.run scanBlock (0, { sizes }) blocks
  { items := scanned.items
    outcome := scanned.outcome.map Prod.snd }

/-! ## The table of sizes -/

theorem measure_eq {sizes : List Nat} {current target : BlockId} (known : current < sizes.length)
    (targetKnown : target < sizes.length) (offset : Nat) :
    measure sizes current offset target = .ok (displacement sizes current offset target) := by
  rw [measure, displacement]
  split
  next backwards =>
    rw [slice, if_pos ⟨backwards, Nat.le_of_lt known⟩]
    rfl
  next forwards =>
    rw [slice, if_pos ⟨Nat.le_of_not_le forwards, Nat.le_of_lt targetKnown⟩]
    rfl

theorem growAt_append (front : List Nat) (size : Nat) (back : List Nat) (growth : Nat) :
    growAt (front ++ size :: back) front.length growth =
      .ok (front ++ (size + growth) :: back) := by
  rw [growAt, itemAt_append]
  exact replaceAt_append ..

theorem growAt_eq {sizes : List Nat} {current : BlockId} (known : current < sizes.length)
    (growth : Nat) : growAt sizes current growth = .ok (sizes.modify current (· + growth)) := by
  obtain ⟨sizesEq, lengthEq⟩ := eq_take_append_cons_drop (List.getElem?_eq_getElem known)
  have grown := growAt_append (sizes.take current) sizes[current] (sizes.drop (current + 1)) growth
  rw [← sizesEq, lengthEq] at grown
  rw [grown, List.modify_eq_take_cons_drop known]

theorem branchTarget_eq_ok_iff {blockCount : Nat} {instr : Instr} {target : BlockId} :
    branchTarget blockCount instr = .ok target ↔
      instr.operands[0]? = some (.block target) ∧ target < blockCount := by
  unfold branchTarget Instr.operand
  cases found : instr.operands[0]? with
  | none => simp [bind, Except.bind]
  | some operand =>
      cases operand with
      | block known =>
          simp only [bind, Except.bind, Option.some.injEq, Operand.block.injEq]
          split
          next inBounds =>
            rw [Except.ok.injEq]
            constructor
            · rintro rfl
              exact ⟨rfl, inBounds⟩
            · exact And.left
          next outside =>
            constructor
            · intro impossible
              contradiction
            · rintro ⟨rfl, inBounds⟩
              exact absurd inBounds outside
      | register reg flags => simp [bind, Except.bind]
      | immediate value => simp [bind, Except.bind]
      | symbol name => simp [bind, Except.bind]
      | frameIndex index => simp [bind, Except.bind]

theorem scanInstr_sizes {current : BlockId} {cursor next : Cursor} {instr : Instr}
    (outcome : (scanInstr current cursor instr).outcome = .ok next) :
    next.scan.sizes.length = cursor.scan.sizes.length := by
  unfold scanInstr at outcome
  split at outcome
  · contradiction
  · cases outcome
    rfl
  · cases outcome
    exact List.length_modify ..

theorem scanBlock_sizes {state next : BlockId × Scan} {block : Block}
    (outcome : (scanBlock state block).outcome = .ok next) :
    next.2.sizes.length = state.2.sizes.length := by
  simp only [scanBlock] at outcome
  obtain ⟨cursor, scanned, rfl⟩ := exists_of_map_eq_ok outcome
  exact Sweep.run_invariant
    (fun _ _ cursor => cursor.scan.sizes.length = state.2.sizes.length)
    (fun _ _ _ _ _ holds stepped => (scanInstr_sizes stepped).trans holds) rfl scanned

/-! ## The steps of the walk -/

section

variable {function : Function} {id : BlockId} {block : Block}

/-- A step of the walk replaces an instruction as a step of the sweep does, and the walk goes on
behind the replacement. -/
theorem run_scanAt (found : function.block? id = some block) {cursor : Cursor}
    (known : id < cursor.scan.sizes.length) (front : List Instr) (instr : Instr)
    (back : List Instr) :
    (scanAt id front.length instr cursor).run (function.withInstrs id (front ++ instr :: back)) =
      (Pass.ofExcept ((scanInstr id cursor instr).outcome.map fun next =>
        (front.length + (scanInstr id cursor instr).items.length, next))).run
        (function.withInstrs id (front ++ ((scanInstr id cursor instr).items ++ back))) := by
  rw [scanAt, scanInstr, expansion?]
  dsimp only
  by_cases relaxable : isRelaxable instr = true
  · simp only [if_pos relaxable]
    cases leads : branchTarget cursor.scan.sizes.length instr with
    | error reason => rfl
    | ok target =>
        obtain ⟨-, targetKnown⟩ := branchTarget_eq_ok_iff.mp leads
        refine (Pass.run_bind_of_ok (Pass.run_ofExcept_ok ..) _).trans ?_
        rw [measure_eq known targetKnown]
        refine (Pass.run_bind_of_ok (Pass.run_ofExcept_ok ..) _).trans ?_
        simp only [bind, Except.bind]
        by_cases fits : fitsShort (displacement cursor.scan.sizes id cursor.offset target) = true
        · simp only [if_pos fits]
          rfl
        · simp only [if_neg fits]
          cases longForm instr target with
          | error reason => rfl
          | ok long =>
              have replaced := Pass.run_replaceInstruction found front instr back long
              refine (Pass.run_bind_of_ok replaced _).trans ?_
              rw [growAt_eq known]
              rfl
  · simp only [if_neg relaxable]
    rfl

/-- The steps of the walk follow those of the sweep, one for each instruction. -/
theorem scanAt_follows {count : Nat} (known : id < count)
    (found : function.block? id = some block) :
    Pass.Follows function id (scanAt id) (scanInstr id) (fun _ => 1)
      fun cursor => cursor.scan.sizes.length = count where
  stops front instr back cursor items reason holds swept := by
    rw [run_scanAt found (holds ▸ known), swept]
    rfl
  advances front instr back cursor items next holds swept := by
    refine ⟨(scanInstr_sizes (by rw [swept]; rfl)).trans holds, items, [],
      (List.append_nil items).symm, nofun, Nat.zero_lt_one, ?_⟩
    rw [run_scanAt found (holds ▸ known), swept]
    rfl

/-- Walking through a block is the sweep over its instructions. -/
theorem run_scanBody (found : function.block? id = some block) {scan : Scan}
    (known : id < scan.sizes.length) :
    (scanBody id scan).run function =
      (Pass.ofExcept ((scanBlock (id, scan) block).outcome.map Prod.snd)).run
        (function.withInstrs id (Sweep.run (scanInstr id) { scan } block.instrs).items) := by
  have enough : totalSize (block.instrs.map fun _ => 1) < block.instrs.length + 1 := by
    rw [totalSize_map_eq_length fun _ _ => rfl]
    exact Nat.lt_succ_self _
  have walked := Pass.run_walk_block found (scanAt_follows known found) { scan } rfl enough
  refine (Pass.run_bind_of_ok (Pass.run_block_of_some found) _).trans ?_
  rw [scanBlock]
  cases swept : Sweep.run (scanInstr id) { scan } block.instrs with
  | mk items outcome =>
      rw [swept] at walked
      cases outcome with
      | error reason => exact Pass.run_bind_of_error walked _
      | ok last => exact Pass.run_bind_of_ok walked _

/-- A scan that walks through a function with a table of all blocks is the sweep over its blocks. -/
theorem run_visitBlocks_scanBody {sizes : List Nat} (all : sizes.length = function.blocks.length) :
    (Pass.visitBlocks scanBody { sizes }).run function =
      (Pass.sweepBlocks (scanBlocks sizes)).run function := by
  have follows : Pass.VisitsFollow function scanBody scanBlock Prod.mk Prod.snd
      fun scan => scan.sizes.length = function.blocks.length := by
    refine ⟨fun _ _ => rfl, fun front block rest scan holds total => ?_⟩
    have known : front.length < scan.sizes.length := by
      rw [holds, ← total, List.length_append, List.length_cons]
      omega
    have scanned := run_scanBody (function.block?_append front block rest) known
    refine ⟨_, (scanBlock (front.length, scan) block).outcome.map Prod.snd, ?_, ?_,
      scanned.trans (congrArg _ (function.modifyBlock_append front block rest _))⟩
    · rw [scanBlock]
      cases (Sweep.run (scanInstr front.length) { scan } block.instrs).outcome <;> rfl
    · intro next ran
      obtain ⟨state, outcome, rfl⟩ := exists_of_map_eq_ok ran
      exact (scanBlock_sizes outcome).trans holds
  exact Pass.run_visitBlocks follows { sizes } all

end

end Relaxation

end MachineCode
