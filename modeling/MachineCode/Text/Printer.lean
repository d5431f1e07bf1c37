import MachineCode.Function

/-!
# Printing functions

The written form of a function: the header, the directives that differ from their default, the
blocks with their instructions, and the closing brace. Registers that a block receives are
listed in a comment.
-/

namespace MachineCode

/-- The flags of a register operand, each with a blank behind it. -/
def RegisterFlags.text (flags : RegisterFlags) : String :=
  (if flags.isImplicit then (if flags.isDef then "implicit-def " else "implicit ") else "") ++
    (if flags.isKilled then "killed " else "") ++
    (if flags.isDead && flags.isDef then "dead " else "")

/-- The written form of an operand at a position of an instruction. The condition of a
conditional jump is written as its mnemonic. -/
def Operand.text (blockName : BlockId → String) (opcode : Opcode) (position : Nat) :
    Operand → String
  | .register reg flags => flags.text ++ reg.name
  | .immediate value =>
      match (if opcode = .jcc ∧ position = 1 then Condition.ofCode? value else none) with
      | some condition => condition.mnemonic
      | none => value.toInt.repr
  | .symbol name => "@" ++ name
  | .block target => "^" ++ blockName target
  | .frameIndex index => "fi#" ++ index.toInt.repr

namespace Instr

/-- Whether an operand stands to the left of the equals sign if all before it do. -/
def isLeading (operand : Operand) : Bool :=
  operand.isDef && !operand.isImplicit

def text (blockName : BlockId → String) (instr : Instr) : String :=
  let operands := instr.operands.mapIdx (Operand.text blockName instr.opcode)
  let leading := (instr.operands.takeWhile isLeading).length
  let written := operands.take leading
  let used := operands.drop leading
  (if written.isEmpty then "" else ", ".intercalate written ++ " = ") ++ instr.opcode.name ++
    (if used.isEmpty then "" else " " ++ ", ".intercalate used)

end Instr

namespace Function

def blockName (function : Function) (id : BlockId) : String :=
  match function.block? id with
  | some block => block.name
  | none => "bb." ++ id.repr

/-- The names of registers, each with a blank in front of it. -/
def registerList (registers : List Register) : String :=
  String.join (registers.map fun register => " " ++ register.name)

/-- The lines that describe an object. -/
def objectLine (keyword : String) (object : FrameObject) : String :=
  "  " ++ keyword ++ " size=" ++ object.size.toNat.repr ++ " offset=" ++ object.offset.toInt.repr

def directiveLines (function : Function) : List String :=
  let frame := function.frame
  (if frame.stackSize = 0 then [] else ["  stack_size " ++ frame.stackSize.toNat.repr]) ++
    (if frame.offsetAdjustment = 0 then []
      else ["  offset_adjustment " ++ frame.offsetAdjustment.toInt.repr]) ++
    (if frame.hasVarSizedObjects then ["  var_sized_objects"] else []) ++
    (if frame.isAddressTaken then ["  frame_address_taken"] else []) ++
    frame.objects.map (objectLine "object") ++
    frame.fixedObjects.map (objectLine "fixed_object") ++
    (if function.calleeSaved.isEmpty then []
      else ["  callee_saved" ++ registerList function.calleeSaved])

def blockLines (function : Function) (block : Block) : List String :=
  let received := block.liveIns.toList
  let comment := if received.isEmpty then "" else "    ; live-ins:" ++ registerList received
  (block.name ++ ":" ++ comment) ::
    block.instrs.map fun instr => "  " ++ instr.text function.blockName

/-- The lines of a function. -/
def lines (function : Function) : List String :=
  ("func @" ++ function.name ++ " \x7b") ::
    (function.directiveLines ++ function.blocks.flatMap function.blockLines ++ ["\x7d"])

/-- The written form of a function. -/
def print (function : Function) : String :=
  "\n".intercalate function.lines

end Function

end MachineCode
