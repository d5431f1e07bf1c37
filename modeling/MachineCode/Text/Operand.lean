import MachineCode.Instr
import MachineCode.Text.Line
import MachineCode.Text.Numeral

/-!
# Reading operands and instructions

An instruction is written `defs = OPCODE uses` or `OPCODE uses`. Operands are separated by
commas. Flags may precede a register.
-/

namespace MachineCode.Text

def readInteger (line : SourceLine) (text : List Char) : Except ReadError Int64 :=
  match readInteger? text with
  | some value => .ok value
  | none => .error (line.error (.invalidNumber (.ofList text)))

/-- Add the flag that a word denotes. -/
def readFlag (line : SourceLine) (flags : RegisterFlags) (word : List Char) :
    Except ReadError RegisterFlags :=
  match String.ofList word with
  | "implicit-def" => .ok { flags with isDef := true, isImplicit := true }
  | "implicit" => .ok { flags with isImplicit := true }
  | "killed" => .ok { flags with isKilled := true }
  | "dead" => .ok { flags with isDead := true }
  | _ => .error (line.expected .operandFlag word)

/-- The register that a word denotes, if it denotes one. -/
def readRegister? (line : SourceLine) (word : List Char) : Except ReadError (Option Reg) :=
  match word with
  | '%' :: digits =>
      match readUnsigned? 10 UInt32.size digits with
      | some number => .ok (some (.virtual (UInt32.ofNat number)))
      | none => .error (line.error (.invalidNumber (.ofList word)))
  | _ => .ok ((Register.ofName? (.ofList word)).map .physical)

/-- The block with the given name, among the names of a function's blocks in order. -/
def readBlock (labels : List (List Char)) (line : SourceLine) (name : List Char) :
    Except ReadError BlockId :=
  match labels.findIdx? (· == name) with
  | some id => .ok id
  | none => .error (line.error (.undefinedBlock (.ofList name)))

/-- The frame index that a word denotes; the word without its mark is an integer of 32 bits. -/
def readFrameIndex (line : SourceLine) (word digits : List Char) : Except ReadError FrameIndex := do
  let value := (← readInteger line digits).toInt
  if Int32.minValue.toInt ≤ value ∧ value ≤ Int32.maxValue.toInt then
    .ok (Int32.ofInt value)
  else
    .error (line.error (.invalidNumber (.ofList word)))

/-- Whether a word starts like a number. -/
def startsNumber : List Char → Bool
  | char :: _ => char.isDigit || char == '-'
  | [] => false

/-- The operand, other than a register, that a word denotes. -/
def readPlainOperand (labels : List (List Char)) (line : SourceLine) (word : List Char) :
    Except ReadError Operand :=
  match word with
  | '@' :: name => .ok (.symbol (.ofList name))
  | '^' :: name => .block <$> readBlock labels line name
  | 'f' :: 'i' :: '#' :: digits => .frameIndex <$> readFrameIndex line word digits
  | _ =>
      match Condition.ofMnemonic? (.ofList word) with
      | some condition => .ok (.immediate condition.code)
      | none =>
          if startsNumber word then
            .immediate <$> readInteger line word
          else
            .error (line.expected .operand word)

/-- An operand: a word, behind flags if it denotes a register. -/
def readOperand (labels : List (List Char)) (line : SourceLine) (text : List Char) :
    Except ReadError Operand :=
  match (words text).getLast? with
  | none => .error (line.missing .operand)
  | some word => do
      let flagWords := (words text).dropLast
      let flags ← flagWords.foldlM (readFlag line) {}
      match ← readRegister? line word with
      | some reg => .ok (.register reg flags)
      | none =>
          if flagWords.isEmpty then
            readPlainOperand labels line word
          else
            .error (line.expected .registerAfterFlags text)

/-- An operand to the left of the equals sign, which is a register that is written. -/
def readDefinition (labels : List (List Char)) (line : SourceLine) (text : List Char) :
    Except ReadError Operand := do
  match ← readOperand labels line text with
  | .register reg flags => .ok (.register reg { flags with isDef := true })
  | _ => .error (line.expected .registerDefinition text)

def commaFields (text : List Char) : List (List Char) :=
  (text.splitOn ',').map trim

/-- The operands to the left of the equals sign, if there is one. -/
def readDefinitions (labels : List (List Char)) (line : SourceLine) :
    Option (List Char) → Except ReadError (List Operand)
  | none => .ok []
  | some text => (commaFields text).mapM (readDefinition labels line)

/-- The operands behind the opcode. -/
def readUses (labels : List (List Char)) (line : SourceLine) (text : List Char) :
    Except ReadError (List Operand) :=
  if text.isEmpty then .ok []
  else (commaFields text).mapM (readOperand labels line)

/-- The text before the equals sign, if there is one, and the rest of the line. -/
def splitDefinitions (text : List Char) : Option (List Char) × List Char :=
  match splitFirst (· == '=') text with
  | some (definitions, rest) => (some definitions, trim rest)
  | none => (none, text)

/-- The opcode's name and the text of the operands behind it. -/
def splitOpcode (text : List Char) : List Char × List Char :=
  match splitFirst isSpace text with
  | some (name, uses) => (name, trim uses)
  | none => (text, [])

/-- The instruction that a line denotes. -/
def readInstr (labels : List (List Char)) (line : SourceLine) : Except ReadError Instr := do
  let (definitions, rest) := splitDefinitions line.text
  let (name, uses) := splitOpcode rest
  match Opcode.ofName? (.ofList name) with
  | none => .error (line.error (.unknownOpcode (.ofList name)))
  | some opcode =>
      let written ← readDefinitions labels line definitions
      let used ← readUses labels line uses
      .ok { opcode, operands := written ++ used }

end MachineCode.Text
