import MachineCode.Opcode

/-!
# Code generation errors

Why lowering, relaxing or encoding a function stops. Every cause is a constructor, and
`CodeError.message` is the only place that gives a cause its wording.
-/

namespace MachineCode

/-- What an instruction needs at an operand position. -/
inductive OperandShape where
  | register
  | immediate
  | frameIndex
  | callFramePseudo
  | basicBlock
  | conditionCode
  | registerOrConditionCode
  deriving DecidableEq, Repr

def OperandShape.phrase : OperandShape → String
  | .register => "a register"
  | .immediate => "an immediate"
  | .frameIndex => "a frame index"
  | .callFramePseudo => "a call frame pseudo"
  | .basicBlock => "a basic block"
  | .conditionCode => "a condition code"
  | .registerOrConditionCode => "a register or condition code"

/-- What an earlier pass left undone in an instruction that is being encoded. -/
inductive Unfinished where
  | frameIndex
  | pseudo
  | virtualRegister
  deriving DecidableEq, Repr

def Unfinished.phrase : Unfinished → String
  | .frameIndex => "frame index operand was not eliminated"
  | .pseudo => "pseudo instruction was not expanded"
  | .virtualRegister => "virtual register was not allocated"

/-- A reason for which code generation stops. -/
inductive CodeError where
  /-- An operand has the wrong shape. -/
  | malformedOperand (opcode : Opcode) (index : Nat) (expected : OperandShape)
  /-- An instruction has too few operands. -/
  | operandCount (opcode : Opcode) (expected found : Nat)
  /-- A prologue was requested for a block other than the entry. -/
  | shrinkWrapping (block entry : Nat)
  /-- An epilogue was requested for a block that does not end in a return. -/
  | notAReturnBlock (block : Nat) (last : Option Opcode)
  /-- A fixup kind has no relocation type. -/
  | unmappedFixupKind (kind : UInt8)
  /-- A frame slot is used inside a call sequence that has moved the stack pointer. -/
  | unexpectedSpAdjustment (bytes : Int64)
  /-- Relaxation used up its scans. -/
  | relaxationDidNotConverge (iterations : Nat)
  /-- The frame is smaller than its fixed regions. -/
  | inconsistentFrame (stackSize required : UInt64)
  /-- The slot of the frame pointer is not the lowest fixed object. -/
  | framePointerSlot (index begin : Int32)
  /-- An instruction reached the encoder before it was finished. -/
  | unfinalized (opcode : Opcode) (reason : Unfinished)
  /-- No frame object has this index. -/
  | unknownFrameIndex (index : Int32)
  /-- A block has no instruction at this position. -/
  | noInstruction (block index : Nat)
  /-- No block has this identifier. -/
  | unknownBlock (block : Nat)
  /-- A list was accessed or edited behind its end. -/
  | outOfRange (position length : Nat)
  /-- A walk over a block has used up its steps. -/
  | unfinishedWalk (block position : Nat)
  deriving DecidableEq, Repr

def CodeError.message : CodeError → String
  | .malformedOperand opcode index expected =>
      opcode.name ++ ": operand " ++ index.repr ++ " is not " ++ expected.phrase
  | .operandCount opcode expected found =>
      opcode.name ++ ": expected " ++ expected.repr ++ " operands, found " ++ found.repr
  | .shrinkWrapping block entry =>
      "shrink-wrapping not supported: prologue requested for bb." ++ block.repr ++
        ", entry is bb." ++ entry.repr
  | .notAReturnBlock block last =>
      "can only insert epilogue into returning blocks (bb." ++ block.repr ++ " ends in " ++
        (last.map Opcode.name).getD "<empty>" ++ ")"
  | .unmappedFixupKind kind => "invalid fixup kind " ++ kind.toNat.repr
  | .unexpectedSpAdjustment bytes =>
      "unexpected stack pointer adjustment of " ++ bytes.toInt.repr ++
        " bytes during frame index elimination"
  | .relaxationDidNotConverge iterations =>
      "branch relaxation did not converge after " ++ iterations.repr ++ " iterations"
  | .inconsistentFrame stackSize required =>
      "frame of " ++ stackSize.toNat.repr ++ " bytes cannot hold " ++ required.toNat.repr ++
        " bytes of fixed regions"
  | .framePointerSlot index begin =>
      "slot for FP register must be first fixed object (got index " ++ index.toInt.repr ++
        ", begin " ++ begin.toInt.repr ++ ")"
  | .unfinalized opcode reason =>
      opcode.name ++ " reached the encoder unfinalized: " ++ reason.phrase
  | .unknownFrameIndex index => "unknown frame index " ++ index.toInt.repr
  | .noInstruction block index =>
      "bb." ++ block.repr ++ " has no instruction at index " ++ index.repr
  | .unknownBlock block => "unknown basic block " ++ block.repr
  | .outOfRange position length =>
      "position " ++ position.repr ++ " is out of range for a list of length " ++ length.repr
  | .unfinishedWalk block position =>
      "bb." ++ block.repr ++ " was left unfinished at index " ++ position.repr

end MachineCode
