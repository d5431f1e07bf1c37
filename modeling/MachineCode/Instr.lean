import MachineCode.Condition
import MachineCode.Error
import MachineCode.Layout
import MachineCode.Operand

/-!
# Instructions

An instruction is an opcode with a list of operands. Nothing ties the number or the shape of
the operands to the opcode, so every access that needs a shape is checked and reports what it
missed.
-/

namespace MachineCode

/-- A machine instruction. -/
structure Instr where
  opcode : Opcode
  operands : List Operand := []
  deriving DecidableEq, Repr

namespace Instr

/-- The report that an operand does not have the shape that the opcode needs. -/
def malformed (instr : Instr) (index : Nat) (expected : OperandShape) : CodeError :=
  .malformedOperand instr.opcode index expected

def operand (instr : Instr) (index : Nat) : Except CodeError Operand :=
  match instr.operands[index]? with
  | some operand => .ok operand
  | none => .error (.operandCount instr.opcode (index + 1) instr.operands.length)

def registerOperand (instr : Instr) (index : Nat) : Except CodeError Reg := do
  match ← instr.operand index with
  | .register reg _ => .ok reg
  | _ => .error (instr.malformed index .register)

def immediateOperand (instr : Instr) (index : Nat) : Except CodeError Int64 := do
  match ← instr.operand index with
  | .immediate value => .ok value
  | _ => .error (instr.malformed index .immediate)

theorem operand_eq_ok {instr : Instr} {index : Nat} {operand : Operand}
    (found : instr.operand index = .ok operand) : instr.operands[index]? = some operand := by
  unfold Instr.operand at found
  split at found
  next present =>
    cases found
    exact present
  next => contradiction

theorem immediateOperand_eq_ok {instr : Instr} {index : Nat} {value : Int64}
    (found : instr.immediateOperand index = .ok value) :
    instr.operands[index]? = some (.immediate value) := by
  unfold immediateOperand at found
  cases read : instr.operand index with
  | error reason => simp [read, bind, Except.bind] at found
  | ok operand =>
      rw [operand_eq_ok read]
      simp only [read, bind, Except.bind] at found
      split at found
      · cases found
        rfl
      · contradiction

theorem registerOperand_eq_ok {instr : Instr} {index : Nat} {reg : Reg}
    (found : instr.registerOperand index = .ok reg) :
    ∃ flags, instr.operands[index]? = some (.register reg flags) := by
  unfold registerOperand at found
  cases read : instr.operand index with
  | error reason => simp [read, bind, Except.bind] at found
  | ok operand =>
      rw [operand_eq_ok read]
      simp only [read, bind, Except.bind] at found
      split at found
      · cases found
        exact ⟨_, rfl⟩
      · contradiction

/-- Mark the register written at a position as never read. -/
def markDead (instr : Instr) (index : Nat) : Except CodeError Instr := do
  match ← instr.operand index with
  | .register reg flags =>
      let dead : Operand := .register reg { flags with isDead := true }
      .ok { instr with operands := instr.operands.set index dead }
  | _ => .error (instr.malformed index .register)

/-- Put an operand in the place of the one at a position. -/
def setOperand (instr : Instr) (index : Nat) (operand : Operand) : Except CodeError Instr := do
  let _ ← instr.operand index
  .ok { instr with operands := instr.operands.set index operand }

/-- The number of operands that are not implicit. -/
def explicitOperandCount (instr : Instr) : Nat :=
  instr.operands.countP fun operand => !operand.isImplicit

def size (instr : Instr) : Nat :=
  instr.opcode.size

/-- The size of a list of instructions in the branch layout. -/
def layoutSize (instrs : List Instr) : Nat :=
  totalSize (instrs.map size)

def isTerminator (instr : Instr) : Bool :=
  instr.opcode.isTerminator

def isReturn (instr : Instr) : Bool :=
  instr.opcode.isReturn

/-- Save a register on the stack. -/
def push (register : Register) : Instr :=
  { opcode := .push16r, operands := [.kill register] }

/-- Load a register from the top of the stack. -/
def pop (register : Register) : Instr :=
  { opcode := .pop16r, operands := [.define register] }

def copy (target source : Register) : Instr :=
  { opcode := .mov16rr, operands := [.define target, .use source] }

/-- Apply an arithmetic opcode to a register and an immediate, in place. -/
def adjust (opcode : Opcode) (reg : Reg) (amount : Int64) : Instr :=
  { opcode,
    operands :=
      [.register reg { isDef := true }, .register reg {}, .immediate amount, .deadStatus] }

/-- Make the instruction that applies an arithmetic opcode to a register in place. It writes the
status register, which is marked as never read. -/
def makeAdjust (opcode : Opcode) (reg : Reg) (amount : Int64) : Except CodeError Instr :=
  markDead
    { opcode
      operands :=
        [.register reg { isDef := true }, .register reg {}, .immediate amount,
          .register (.physical .sr) { isDef := true, isImplicit := true }] } 3

theorem makeAdjust_eq (opcode : Opcode) (reg : Reg) (amount : Int64) :
    makeAdjust opcode reg amount = .ok (adjust opcode reg amount) := rfl

def lowerStack (amount : Int64) : Instr :=
  adjust .sub16ri (.physical .sp) amount

def raiseStack (amount : Int64) : Instr :=
  adjust .add16ri (.physical .sp) amount

end Instr

end MachineCode
