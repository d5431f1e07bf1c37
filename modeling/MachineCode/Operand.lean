import MachineCode.Register

/-!
# Operands

An operand of an instruction is a register with its liveness flags, an immediate, a symbol, a
block of the same function, or a slot of the function's frame. A memory operand is written as
two operands in a row: a base and a displacement.
-/

namespace MachineCode

/-- The identifier of a block: its position in the function. -/
abbrev BlockId := Nat

/-- The index of a frame object: fixed objects have negative indices. -/
abbrev FrameIndex := Int32

/-- Whether a frame index denotes a fixed object. -/
def FrameIndex.isFixed (index : FrameIndex) : Bool :=
  decide (index < 0)

/-- How an instruction uses a register operand. -/
structure RegisterFlags where
  /-- The instruction writes the register. -/
  isDef : Bool := false
  /-- The operand is not part of the written form of the opcode. -/
  isImplicit : Bool := false
  /-- The instruction is the last reader of the register's value. -/
  isKilled : Bool := false
  /-- The value that the instruction writes is never read. -/
  isDead : Bool := false
  deriving DecidableEq, Repr, Inhabited

/-- An operand of an instruction. -/
inductive Operand where
  | register (reg : Reg) (flags : RegisterFlags)
  | immediate (value : Int64)
  | symbol (name : String)
  | block (target : BlockId)
  | frameIndex (index : FrameIndex)
  deriving DecidableEq, Repr

namespace Operand

/-- A register that the instruction reads. -/
def use (register : Register) : Operand :=
  .register (.physical register) {}

/-- A register that the instruction writes. -/
def define (register : Register) : Operand :=
  .register (.physical register) { isDef := true }

/-- A register that the instruction is the last to read. -/
def kill (register : Register) : Operand :=
  .register (.physical register) { isKilled := true }

/-- The status register as an implicit result that nobody reads. -/
def deadStatus : Operand :=
  .register (.physical .sr) { isDef := true, isImplicit := true, isDead := true }

def reg? : Operand → Option Reg
  | .register reg _ => some reg
  | _ => none

def immediate? : Operand → Option Int64
  | .immediate value => some value
  | _ => none

def block? : Operand → Option BlockId
  | .block target => some target
  | _ => none

def frameIndex? : Operand → Option FrameIndex
  | .frameIndex index => some index
  | _ => none

def isImplicit : Operand → Bool
  | .register _ flags => flags.isImplicit
  | _ => false

/-- Whether the operand is a register that the instruction writes. -/
def isDef : Operand → Bool
  | .register _ flags => flags.isDef
  | _ => false

end Operand

end MachineCode
