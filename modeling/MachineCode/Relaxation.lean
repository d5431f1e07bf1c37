import MachineCode.Pass

/-!
# Branch relaxation

A short branch carries a signed displacement of ten bits. A branch whose target lies farther
away is expanded: an unconditional one becomes a long jump, and a conditional one becomes a
short branch on the inverse condition that skips a long jump. Expansion moves the code behind
it, so the blocks are scanned again until a scan expands nothing. A branch is expanded at most
once, which bounds the number of scans by the number of branches plus one.
-/

namespace MachineCode

namespace Relaxation

/-- A function smaller than this has all branch targets within reach. -/
def reach : Nat := 512

/-- Whether a displacement fits into the signed ten-bit field of a short branch. -/
def fitsShort (displacement : Int) : Bool :=
  decide (-512 ≤ displacement) && decide (displacement < 512)

def shortSize : Nat := 2

def longSize (opcode : Opcode) : Nat :=
  if opcode = .jmp then 4 else 6

/-- The bytes that the short branch of an expanded conditional branch skips. -/
def skippedBytes : Int64 := 4

/-- The operand with its condition inverted, if it holds a condition code. -/
def invertCondition? (operand : Operand) : Option Operand :=
  (operand.immediate?.bind Condition.ofCode?).map fun condition =>
    .immediate condition.inverse.code

/-- The instruction with the condition at an operand position inverted, if it has one there. -/
def invertConditionAt? (instr : Instr) (position : Nat) : Except CodeError (Option Instr) := do
  let operand ← instr.operand position
  pure ((invertCondition? operand).map fun inverted =>
    { instr with operands := instr.operands.set position inverted })

/-- Whether an instruction is a short branch that has not been expanded. -/
def isRelaxable (instr : Instr) : Bool :=
  match instr.opcode, instr.operands with
  | .jcc, .immediate _ :: _ => false
  | .jcc, _ => true
  | .jmp, _ => true
  | _, _ => false

/-- The number of branches expanded and of scans made. -/
structure Stats where
  expanded : Nat := 0
  iterations : Nat := 0
  deriving DecidableEq, Repr, Inhabited

/-- The state of a scan: the size of every block as far as branches have been expanded, and the
number of branches that the scan has expanded. Sizes are exact. A table that holds them as numbers
of 32 bits agrees with it on functions of less than 4294967296 bytes. -/
structure Scan where
  sizes : List Nat
  expanded : Nat := 0
  deriving DecidableEq, Repr

/-- The state of a scan inside a block, with the offset of the next instruction. -/
structure Cursor where
  scan : Scan
  offset : Nat := 0
  deriving DecidableEq, Repr

/-- The distance from a branch, at an offset in one block, to the start of a target block, as the
table of sizes has it. -/
def measure (sizes : List Nat) (current : BlockId) (offset : Nat) (target : BlockId) :
    Except CodeError Int := do
  if target ≤ current then
    let between ← slice sizes target current
    pure (offset + totalSize between)
  else
    let between ← slice sizes current target
    pure ((totalSize between : Int) - offset)

/-- The block to which a short branch jumps. -/
def branchTarget (blockCount : Nat) (instr : Instr) : Except CodeError BlockId := do
  match ← instr.operand 0 with
  | .block target =>
      if target < blockCount then .ok target else .error (.unknownBlock target)
  | _ => .error (instr.malformed 0 .basicBlock)

/-- The long form of a short branch. -/
def longForm (instr : Instr) (target : BlockId) : Except CodeError (List Instr) := do
  let jump : Instr := { opcode := .bi, operands := [.block target] }
  if instr.opcode = .jmp then
    pure [jump]
  else
    match invertCondition? (← instr.operand 1) with
    | some condition =>
        pure [{ opcode := .jcc, operands := [.immediate skippedBytes, condition] }, jump]
    | none => .error (instr.malformed 1 .conditionCode)

/-- The sizes with one of them grown. -/
def growAt (sizes : List Nat) (current : BlockId) (growth : Nat) : Except CodeError (List Nat) := do
  let size ← itemAt sizes current
  replaceAt sizes current [size + growth]

/-- Scan the instruction at a position of a block. What a branch adds to the offset and to the size
of its block is known from its kind. -/
def scanAt (current : BlockId) (index : Nat) (instr : Instr) (cursor : Cursor) :
    Pass (Nat × Cursor) := do
  if isRelaxable instr then
    let sizes := cursor.scan.sizes
    let target ← Pass.ofExcept (branchTarget sizes.length instr)
    let distance ← Pass.ofExcept (measure sizes current cursor.offset target)
    if fitsShort distance then
      pure (index + 1, { cursor with offset := cursor.offset + shortSize })
    else
      let long ← Pass.ofExcept (longForm instr target)
      Pass.replaceInstruction current index long
      let grown ← Pass.ofExcept (growAt sizes current (longSize instr.opcode - shortSize))
      pure (index + long.length,
        { scan := { sizes := grown, expanded := cursor.scan.expanded + 1 }
          offset := cursor.offset + longSize instr.opcode })
  else
    pure (index + 1, { cursor with offset := cursor.offset + instr.size })

/-- Scan one block, one step for each of its instructions and one to see the end. -/
def scanBody (id : BlockId) (scan : Scan) : Pass Scan := do
  let steps := (← Pass.block id).instrs.length + 1
  let cursor ← Pass.walk id (scanAt id) steps 0 { scan }
  pure cursor.scan

/-- Scan until nothing is expanded, at most `limit` times. -/
def scanUntilQuiet (sizes : List Nat) (stats : Stats) (limit : Nat) : Pass Stats :=
  match limit with
  | 0 => throw (.relaxationDidNotConverge stats.iterations)
  | limit + 1 => do
      let scan ← Pass.visitBlocks scanBody { sizes }
      let stats : Stats := {
        expanded := stats.expanded + scan.expanded
        iterations := stats.iterations + 1 }
      if scan.expanded = 0 then
        pure stats
      else
        scanUntilQuiet scan.sizes stats limit

/-- The number of short branches in a list of blocks. -/
def candidateCount (blocks : List Block) : Nat :=
  (blocks.flatMap Block.instrs).countP isRelaxable

end Relaxation

open Relaxation in
/-- Expand the branches of a function whose targets are out of reach. -/
def relaxBranches : Pass Relaxation.Stats := do
  let blocks := (← get).blocks
  let sizes := blocks.map Block.size
  if totalSize sizes < reach then
    pure {}
  else
    scanUntilQuiet sizes {} (candidateCount blocks + 1)

end MachineCode
