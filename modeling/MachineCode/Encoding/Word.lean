import MachineCode.Target

/-!
# Instruction words

An instruction word has eight bytes: the opcode, a byte with two register nibbles, two bytes
that are zero, and a value of four bytes. The byte order of the stream applies to the value,
and it also decides which nibble of the register byte comes first.
-/

namespace MachineCode

/-- The fields of an instruction word. -/
structure Word where
  opcode : UInt8 := 0
  /-- The encoding of the source register. -/
  source : BitVec 4 := 0#4
  /-- The encoding of the destination register, or a condition code. -/
  destination : BitVec 4 := 0#4
  value : BitVec 32 := 0#32
  deriving DecidableEq, Repr

/-- Exchange the two nibbles of a byte. -/
def swapNibbles (byte : UInt8) : UInt8 :=
  (byte &&& 0x0f) <<< 4 ||| (byte &&& 0xf0) >>> 4

/-- The byte of a bit vector that starts at a bit position. -/
def byteAt {width : Nat} (bits : BitVec width) (start : Nat) : UInt8 :=
  ⟨bits.extractLsb' start 8⟩

namespace Word

/-- The byte with the two register nibbles of a word. -/
def registerByte (word : Word) : UInt8 :=
  ⟨word.source ++ word.destination⟩

/-- The fields of a word side by side, from the highest to the lowest. -/
def code (word : Word) : BitVec 64 :=
  word.opcode.toBitVec ++ word.registerByte.toBitVec ++ 0#16 ++ word.value

def valueBytes (order : ByteOrder) (value : BitVec 32) : List UInt8 :=
  match order with
  | .little => [byteAt value 0, byteAt value 8, byteAt value 16, byteAt value 24]
  | .big => [byteAt value 24, byteAt value 16, byteAt value 8, byteAt value 0]

/-- The two bytes between the register byte and the value, which are the same in both orders as
long as they are zero. -/
def reservedBytes (order : ByteOrder) (reserved : BitVec 16) : List UInt8 :=
  match order with
  | .little => [byteAt reserved 0, byteAt reserved 8]
  | .big => [byteAt reserved 8, byteAt reserved 0]

/-- The bytes of a word, cut from its code. -/
def bytes (order : ByteOrder) (word : Word) : List UInt8 :=
  let registers := match order with
    | .little => byteAt word.code 48
    | .big => swapNibbles (byteAt word.code 48)
  [byteAt word.code 56, registers] ++ reservedBytes order (word.code.extractLsb' 32 16) ++
    valueBytes order (word.code.setWidth 32)

def length : Nat := 8

def valueOffset : Nat := 4

theorem byteAt_code_opcode (word : Word) : byteAt word.code 56 = word.opcode := by
  apply UInt8.eq_of_toBitVec_eq
  calc word.code.extractLsb' 56 8
      = (word.opcode.toBitVec ++ word.registerByte.toBitVec ++ 0#16).extractLsb' 24 8 :=
        BitVec.extractLsb'_append_eq_of_le (by decide)
    _ = (word.opcode.toBitVec ++ word.registerByte.toBitVec).extractLsb' 8 8 :=
        BitVec.extractLsb'_append_eq_of_le (by decide)
    _ = word.opcode.toBitVec := BitVec.extractLsb'_append_eq_left

theorem byteAt_code_registers (word : Word) : byteAt word.code 48 = word.registerByte := by
  apply UInt8.eq_of_toBitVec_eq
  calc word.code.extractLsb' 48 8
      = (word.opcode.toBitVec ++ word.registerByte.toBitVec ++ 0#16).extractLsb' 16 8 :=
        BitVec.extractLsb'_append_eq_of_le (by decide)
    _ = (word.opcode.toBitVec ++ word.registerByte.toBitVec).extractLsb' 0 8 :=
        BitVec.extractLsb'_append_eq_of_le (by decide)
    _ = word.registerByte.toBitVec := BitVec.extractLsb'_append_eq_right

theorem extractLsb'_code_reserved (word : Word) : word.code.extractLsb' 32 16 = 0#16 :=
  calc word.code.extractLsb' 32 16
      = (word.opcode.toBitVec ++ word.registerByte.toBitVec ++ 0#16).extractLsb' 0 16 :=
        BitVec.extractLsb'_append_eq_of_le (by decide)
    _ = 0#16 := BitVec.extractLsb'_append_eq_right

theorem setWidth_code (word : Word) : word.code.setWidth 32 = word.value :=
  BitVec.setWidth_append_eq_right

/-- The fields of a word, one after the other. -/
theorem bytes_eq (order : ByteOrder) (word : Word) :
    word.bytes order =
      [word.opcode,
        match order with
        | .little => word.registerByte
        | .big => swapNibbles word.registerByte,
        0, 0] ++ valueBytes order word.value := by
  simp only [bytes, byteAt_code_opcode, byteAt_code_registers, extractLsb'_code_reserved,
    setWidth_code]
  cases order <;> rfl

@[simp] theorem length_bytes (order : ByteOrder) (word : Word) :
    (word.bytes order).length = length := by
  cases order <;> rfl

end Word

end MachineCode
