import MachineCode.Encoding.Instr
import MachineCode.Function

/-!
# Code streams

The code of a function is the code of its instructions, one after the other. Fixups and the
starts of blocks are counted from the start of the function. Offsets are exact: an object file holds
them in four bytes, so they are its offsets for code of less than 4294967296 bytes.
-/

namespace MachineCode

/-- Code with its fixups, and the number of instructions that it encodes. -/
structure Code where
  bytes : List UInt8 := []
  fixups : List Fixup := []
  instructions : Nat := 0
  deriving DecidableEq, Repr

/-- The code of instructions that start at an offset of the function. -/
def encodeInstrs (order : ByteOrder) (start : Nat) : List Instr → Except CodeError Code
  | [] => .ok {}
  | instr :: rest => do
      let encoded ← instr.encode order
      let code ← encodeInstrs order (start + encoded.bytes.length) rest
      .ok {
        bytes := encoded.bytes ++ code.bytes
        fixups := encoded.fixups.map (·.shift start) ++ code.fixups
        instructions := 1 + code.instructions }

/-- The code of a function, with the offset at which each block starts, in layout order. -/
structure CodeStream extends Code where
  blockOffsets : List Nat := []
  deriving DecidableEq, Repr

/-- The code of blocks that start at an offset of the function. -/
def encodeBlocks (order : ByteOrder) (start : Nat) : List Block → Except CodeError CodeStream
  | [] => .ok {}
  | block :: rest => do
      let code ← encodeInstrs order start block.instrs
      let stream ← encodeBlocks order (start + code.bytes.length) rest
      .ok {
        bytes := code.bytes ++ stream.bytes
        fixups := code.fixups ++ stream.fixups
        instructions := code.instructions + stream.instructions
        blockOffsets := start :: stream.blockOffsets }

end MachineCode
