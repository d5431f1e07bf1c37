/-!
# Registers

The machine has sixteen register numbers. Each number can be named at two widths, and both
names of a number denote the same storage, so they share one encoding. The module describes
the physical registers, the two register classes, finite sets of registers, and the register
references that instructions carry, which may still be virtual.
-/

namespace MachineCode

/-- The width at which a register is named. -/
inductive Width where
  | word
  | byte
  deriving DecidableEq, Repr, Inhabited

/-- A physical register: a register number named at one of the two widths. -/
structure Register where
  number : Fin 16
  width : Width
  deriving DecidableEq, Repr, Inhabited

namespace Register

/-- The program counter. -/
def pc : Register := ⟨0, .word⟩

/-- The stack pointer. -/
def sp : Register := ⟨1, .word⟩

/-- The status register, which arithmetic instructions define implicitly. -/
def sr : Register := ⟨2, .word⟩

/-- The constant generator. -/
def cg : Register := ⟨3, .word⟩

/-- The frame pointer. -/
def fp : Register := ⟨4, .word⟩

def r5 : Register := ⟨5, .word⟩
def r6 : Register := ⟨6, .word⟩
def r7 : Register := ⟨7, .word⟩
def r8 : Register := ⟨8, .word⟩
def r9 : Register := ⟨9, .word⟩
def r10 : Register := ⟨10, .word⟩
def r11 : Register := ⟨11, .word⟩
def r12 : Register := ⟨12, .word⟩
def r13 : Register := ⟨13, .word⟩
def r14 : Register := ⟨14, .word⟩

/-- The name of a register number at word width: the first five have a role of their own. -/
def wordName : Fin 16 → String
  | 0 => "pc"
  | 1 => "sp"
  | 2 => "sr"
  | 3 => "cg"
  | 4 => "fp"
  | number => "r" ++ number.val.repr

/-- The name of a register: a byte register is named after its word register. -/
def name (register : Register) : String :=
  match register.width with
  | .word => wordName register.number
  | .byte => wordName register.number ++ "b"

/-- The position of a register in the register file: word registers come first. -/
def index (register : Register) : Nat :=
  match register.width with
  | .word => register.number
  | .byte => 16 + register.number

def isByte (register : Register) : Bool :=
  register.width == .byte

/-- The four-bit encoding of a register, shared by both widths. -/
def encoding (register : Register) : BitVec 4 :=
  BitVec.ofFin register.number

def all : List Register :=
  (List.finRange 16).map (⟨·, .word⟩) ++ (List.finRange 16).map (⟨·, .byte⟩)

def ofName? (text : String) : Option Register :=
  all.find? fun register => register.name == text

/-- The registers that a function has to preserve for its caller, in saving order. -/
def calleeSaved : List Register :=
  [fp, r5, r6, r7, r8, r9, r10, r11]

/-- The register that has the same storage at byte width. -/
def byteAlias (register : Register) : Register :=
  { register with width := .byte }

theorem mem_all (register : Register) : register ∈ all := by
  obtain ⟨number, width⟩ := register
  cases width <;> simp [all]

theorem index_lt (register : Register) : register.index < 32 := by
  obtain ⟨number, width⟩ := register
  cases width <;> simp only [index] <;> omega

theorem index_injective {left right : Register} (equal : left.index = right.index) :
    left = right := by
  obtain ⟨leftNumber, leftWidth⟩ := left
  obtain ⟨rightNumber, rightWidth⟩ := right
  cases leftWidth <;> cases rightWidth <;> simp only [index] at equal
  · rw [Fin.ext equal]
  · omega
  · omega
  · rw [Fin.ext (Nat.add_left_cancel equal)]

/-- Names are distinct, so looking a name up finds the register that has it. -/
@[simp] theorem ofName?_name (register : Register) : ofName? register.name = some register := by
  have every : ∀ candidate ∈ all, ofName? candidate.name = some candidate := by decide +kernel
  exact every register register.mem_all

end Register

/-- The register classes known to the allocator. -/
inductive RegisterClass where
  /-- The byte registers. -/
  | gr8
  /-- The word registers, which also hold pointers. -/
  | gr16
  deriving DecidableEq, Repr

namespace RegisterClass

def width : RegisterClass → Width
  | .gr8 => .byte
  | .gr16 => .word

/-- Whether a register belongs to a class. -/
def contains (registerClass : RegisterClass) (register : Register) : Bool :=
  register.width == registerClass.width

def members (registerClass : RegisterClass) : List Register :=
  Register.all.filter registerClass.contains

/-- The class whose registers hold pointers. -/
def pointer : RegisterClass := .gr16

end RegisterClass

/-- A finite set of registers, one bit for each register of the file. -/
structure RegisterSet where
  bits : BitVec 32
  deriving DecidableEq, Repr, Inhabited

namespace RegisterSet

def empty : RegisterSet := ⟨0#32⟩

/-- Whether a register is a member. -/
def contains (registers : RegisterSet) (register : Register) : Bool :=
  registers.bits.getLsbD register.index

def insert (registers : RegisterSet) (register : Register) : RegisterSet :=
  ⟨registers.bits ||| BitVec.twoPow 32 register.index⟩

/-- The set of the registers of a list. -/
def ofList (registers : List Register) : RegisterSet :=
  registers.foldl insert empty

def toList (registers : RegisterSet) : List Register :=
  Register.all.filter registers.contains

def size (registers : RegisterSet) : Nat :=
  registers.toList.length

@[simp] theorem contains_empty (register : Register) : empty.contains register = false := by
  simp [contains, empty]

@[simp] theorem contains_insert (registers : RegisterSet) (added register : Register) :
    (registers.insert added).contains register =
      (registers.contains register || decide (register = added)) := by
  have bound := register.index_lt
  by_cases same : register = added
  · subst same
    simp [contains, insert, bound]
  · have different : added.index ≠ register.index :=
      fun equal => same (Register.index_injective equal.symm)
    simp [contains, insert, BitVec.getLsbD_twoPow, same, different]

@[simp] theorem mem_toList (registers : RegisterSet) (register : Register) :
    register ∈ registers.toList ↔ registers.contains register = true := by
  simp [toList, Register.mem_all]

end RegisterSet

/-- A register reference of an instruction: a physical register, or a virtual register that
has not been allocated. -/
inductive Reg where
  | physical (register : Register)
  | virtual (number : UInt32)
  deriving DecidableEq, Repr, Inhabited

/-- The text of a register reference. -/
def Reg.name : Reg → String
  | .physical register => register.name
  | .virtual number => "%" ++ number.toNat.repr

end MachineCode
