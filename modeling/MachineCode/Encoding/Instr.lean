import MachineCode.Encoding.Fixup
import MachineCode.Encoding.Word
import MachineCode.Instr

/-!
# Encoding an instruction

The fields of an instruction word are taken from fixed operand positions that depend on the
opcode. A symbol or a block is encoded as zero and recorded as a fixup. A load of a 64-bit
immediate takes two words, of which the first holds the upper and the second the lower half.
-/

namespace MachineCode

/-- Where the value of an instruction word comes from. -/
inductive ValueSource where
  | zero
  /-- The operand at a position. -/
  | operand (position : Nat)
  /-- The base and the displacement that start at a position. -/
  | memory (position : Nat)
  deriving DecidableEq, Repr

/-- Where the fields of an instruction word come from. -/
structure WordSources where
  destination? : Option Nat := none
  source? : Option Nat := none
  value : ValueSource := .zero
  deriving DecidableEq, Repr

/-- The operand positions that fill the word of an opcode. -/
def Opcode.wordSources? : Opcode → Option WordSources
  | .push16r => some { source? := some 0 }
  | .pop16r => some { destination? := some 0 }
  | .mov16rr | .cmp16rr => some { destination? := some 0, source? := some 1 }
  | .mov16ri | .cmp16ri | .ldImm64 => some { destination? := some 0, value := .operand 1 }
  | .mov16rm => some { destination? := some 0, value := .memory 1 }
  | .mov16mr => some { source? := some 2, value := .memory 0 }
  | .add16rr | .sub16rr | .and16rr | .or16rr | .xor16rr =>
      some { destination? := some 0, source? := some 2 }
  | .add16ri | .sub16ri => some { destination? := some 0, value := .operand 2 }
  | .jcc => some { destination? := some 1, value := .operand 0 }
  | .jmp | .bi | .jal => some { value := .operand 0 }
  | .ret | .reti => some {}
  | .adjCallStackDown | .adjCallStackUp => none

/-- The kind of fixup that an opcode makes of a symbol or a block. -/
def Opcode.fixupKind : Opcode → FixupKind
  | .jal => .secRel4
  | .ldImm64 => .secRel8
  | _ => .pcRel2

/-- The value of an operand, with the fixup that will fill it in. -/
structure EncodedValue where
  bits : BitVec 64
  fixups : List Fixup := []
  deriving DecidableEq, Repr

/-- The code of an instruction, with the fixups that belong to it. -/
structure EncodedInstr where
  bytes : List UInt8
  fixups : List Fixup
  deriving DecidableEq, Repr

namespace Instr

/-- The encoding of a register, which has to be physical. -/
def registerEncoding (instr : Instr) : Reg → Except CodeError (BitVec 4)
  | .physical register => .ok register.encoding
  | .virtual _ => .error (.unfinalized instr.opcode .virtualRegister)

/-- A value that is filled in later. -/
def deferredValue (instr : Instr) (target : FixupTarget) : EncodedValue :=
  { bits := 0#64
    fixups := [{ offset := Word.valueOffset, target, kind := instr.opcode.fixupKind }] }

/-- The value of the operand at a position. -/
def operandValue (instr : Instr) (position : Nat) : Except CodeError EncodedValue := do
  match ← instr.operand position with
  | .register reg _ => pure { bits := (← instr.registerEncoding reg).setWidth 64 }
  | .immediate value => pure { bits := value.toBitVec }
  | .symbol name => pure (instr.deferredValue (.symbol name))
  | .block target => pure (instr.deferredValue (.block target))
  | .frameIndex _ => .error (.unfinalized instr.opcode .frameIndex)

/-- The value of the base and the displacement that start at a position: the base in the upper
half and the displacement in the lower. -/
def memoryValue (instr : Instr) (position : Nat) : Except CodeError (BitVec 32) := do
  let base ← instr.registerEncoding (← instr.registerOperand position)
  let displacement ← instr.immediateOperand (position + 1)
  pure (0#12 ++ base ++ displacement.toBitVec.setWidth 16)

/-- The nibble for the operand at a position: a register or a condition code. -/
def nibble (instr : Instr) : Option Nat → Except CodeError (BitVec 4)
  | none => .ok 0#4
  | some position => do
      match ← instr.operand position with
      | .register reg _ => instr.registerEncoding reg
      | .immediate value => pure (value.toBitVec.setWidth 4)
      | _ => .error (instr.malformed position .registerOrConditionCode)

/-- The value field of an instruction, at full width. -/
def fieldValue (instr : Instr) : ValueSource → Except CodeError EncodedValue
  | .zero => .ok { bits := 0#64 }
  | .operand position => instr.operandValue position
  | .memory position => do
      pure { bits := (← instr.memoryValue position).setWidth 64 }

/-- The word of an instruction with the value that it was made from. -/
def encodeWord (instr : Instr) : Except CodeError (Word × EncodedValue) :=
  match instr.opcode.encoding?, instr.opcode.wordSources? with
  | some opcode, some sources => do
      let source ← instr.nibble sources.source?
      let destination ← instr.nibble sources.destination?
      let value ← instr.fieldValue sources.value
      pure ({ opcode, source, destination, value := value.bits.setWidth 32 }, value)
  | _, _ => .error (.unfinalized instr.opcode .pseudo)

/-- The words of an instruction: two for a load of a 64-bit immediate, one otherwise. The operand
of such a load is resolved a second time, at full width and without its fixups. -/
def encodeWords (instr : Instr) : Except CodeError (List Word × List Fixup) := do
  let (word, value) ← instr.encodeWord
  if instr.opcode = .ldImm64 then
    let full ← instr.operandValue 1
    pure ([{ word with value := full.bits.extractLsb' 32 32 },
        { value := full.bits.setWidth 32 }],
      value.fixups)
  else
    pure ([word], value.fixups)

/-- The code of an instruction in a byte order. -/
def encode (order : ByteOrder) (instr : Instr) : Except CodeError EncodedInstr := do
  let (words, fixups) ← instr.encodeWords
  pure { bytes := words.flatMap (Word.bytes order), fixups }

end Instr

end MachineCode
