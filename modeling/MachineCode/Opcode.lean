/-!
# Opcodes

The instruction set: the name and the encoding byte of every opcode, the size it has in the
branch layout, the number of bytes its encoding takes, and its role in control flow. The two
call sequence pseudos have no encoding and have to be expanded before a function is encoded.
-/

namespace MachineCode

/-- The operation that an instruction performs. -/
inductive Opcode where
  | push16r
  | pop16r
  | mov16rr
  | mov16ri
  | mov16rm
  | mov16mr
  | add16rr
  | add16ri
  | sub16rr
  | sub16ri
  | and16rr
  | or16rr
  | xor16rr
  | cmp16rr
  | cmp16ri
  /-- A short jump that is taken when a condition holds. -/
  | jcc
  /-- A short jump. -/
  | jmp
  /-- A long jump. -/
  | bi
  /-- A call. -/
  | jal
  | ret
  /-- A return from an interrupt. -/
  | reti
  /-- A load of a 64-bit immediate. -/
  | ldImm64
  /-- The start of a call sequence. -/
  | adjCallStackDown
  /-- The end of a call sequence. -/
  | adjCallStackUp
  deriving DecidableEq, Repr, Inhabited

namespace Opcode

def all : List Opcode :=
  [.push16r, .pop16r, .mov16rr, .mov16ri, .mov16rm, .mov16mr, .add16rr, .add16ri, .sub16rr,
    .sub16ri, .and16rr, .or16rr, .xor16rr, .cmp16rr, .cmp16ri, .jcc, .jmp, .bi, .jal, .ret,
    .reti, .ldImm64, .adjCallStackDown, .adjCallStackUp]

def name : Opcode → String
  | .push16r => "PUSH16r"
  | .pop16r => "POP16r"
  | .mov16rr => "MOV16rr"
  | .mov16ri => "MOV16ri"
  | .mov16rm => "MOV16rm"
  | .mov16mr => "MOV16mr"
  | .add16rr => "ADD16rr"
  | .add16ri => "ADD16ri"
  | .sub16rr => "SUB16rr"
  | .sub16ri => "SUB16ri"
  | .and16rr => "AND16rr"
  | .or16rr => "OR16rr"
  | .xor16rr => "XOR16rr"
  | .cmp16rr => "CMP16rr"
  | .cmp16ri => "CMP16ri"
  | .jcc => "JCC"
  | .jmp => "JMP"
  | .bi => "Bi"
  | .jal => "JAL"
  | .ret => "RET"
  | .reti => "RETI"
  | .ldImm64 => "LD_imm64"
  | .adjCallStackDown => "ADJCALLSTACKDOWN"
  | .adjCallStackUp => "ADJCALLSTACKUP"

def ofName? (text : String) : Option Opcode :=
  all.find? fun opcode => opcode.name == text

/-- The first byte of an encoded instruction; the call sequence pseudos have none. -/
def encoding? : Opcode → Option UInt8
  | .push16r => some 0x10
  | .pop16r => some 0x11
  | .ldImm64 => some 0x18
  | .mov16rr => some 0x20
  | .mov16ri => some 0x21
  | .mov16rm => some 0x22
  | .mov16mr => some 0x23
  | .add16rr => some 0x30
  | .add16ri => some 0x31
  | .sub16rr => some 0x32
  | .sub16ri => some 0x33
  | .and16rr => some 0x34
  | .or16rr => some 0x35
  | .xor16rr => some 0x36
  | .cmp16rr => some 0x38
  | .cmp16ri => some 0x39
  | .jcc => some 0x40
  | .jmp => some 0x41
  | .bi => some 0x42
  | .jal => some 0x48
  | .ret => some 0x50
  | .reti => some 0x51
  | .adjCallStackDown | .adjCallStackUp => none

/-- The size in bytes that an instruction has in the branch layout. -/
def size : Opcode → Nat
  | .push16r | .pop16r | .mov16rr | .add16rr | .sub16rr | .and16rr | .or16rr | .xor16rr
  | .cmp16rr | .jcc | .jmp | .ret | .reti => 2
  | .mov16ri | .mov16rm | .mov16mr | .add16ri | .sub16ri | .cmp16ri | .bi | .jal => 4
  | .ldImm64 => 8
  | .adjCallStackDown | .adjCallStackUp => 0

/-- Whether the opcode has no encoding. -/
def isPseudo (opcode : Opcode) : Bool :=
  opcode.encoding?.isNone

/-- The number of bytes in an encoded instruction: one word, two for a 64-bit load. -/
def encodedLength (opcode : Opcode) : Nat :=
  match opcode with
  | .ldImm64 => 16
  | _ => if opcode.isPseudo then 0 else 8

def isReturn : Opcode → Bool
  | .ret | .reti => true
  | _ => false

def isBranch : Opcode → Bool
  | .jcc | .jmp | .bi => true
  | _ => false

def isTerminator (opcode : Opcode) : Bool :=
  opcode.isBranch || opcode.isReturn

theorem mem_all (opcode : Opcode) : opcode ∈ all := by
  cases opcode <;> decide

/-- Mnemonics are distinct, so looking one up finds the opcode that has it. -/
@[simp] theorem ofName?_name (opcode : Opcode) : ofName? opcode.name = some opcode := by
  cases opcode <;> decide +kernel

end Opcode

end MachineCode
