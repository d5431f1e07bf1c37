import MachineCode.Edit
import MachineCode.Frame.Object
import MachineCode.Instr

/-!
# Blocks and functions

A function is a list of blocks together with its frame. Blocks stand in the order in which
they are laid out, the first is the entry, and a block is identified by its position.
-/

namespace MachineCode

/-- A straight run of instructions. -/
structure Block where
  name : String
  instrs : List Instr := []
  /-- The registers whose values the block receives from its predecessors. -/
  liveIns : RegisterSet := .empty
  deriving DecidableEq, Repr

namespace Block

def last? (block : Block) : Option Instr :=
  block.instrs.getLast?

def isReturning (block : Block) : Bool :=
  block.last?.any Instr.isReturn

/-- The position of the first of the terminators that end the block, or the block's length. -/
def firstTerminator (block : Block) : Except CodeError Nat :=
  rowStart Instr.isTerminator block.instrs block.instrs.length

def size (block : Block) : Nat :=
  Instr.layoutSize block.instrs

/-- Record that the block receives the value of a register. -/
def addLiveIn (block : Block) (register : Register) : Block :=
  { block with liveIns := block.liveIns.insert register }

end Block

/-- A machine function after register allocation. -/
structure Function where
  name : String
  blocks : List Block := []
  frame : Frame := {}
  /-- The registers to preserve, in saving order. -/
  calleeSaved : List Register := []
  /-- The size in bytes of the part of the frame that holds the preserved registers. -/
  calleeSavedSize : UInt64 := 0
  deriving DecidableEq, Repr

namespace Function

/-- Append an empty block and give its identifier. -/
def addBlock (function : Function) (name : String) : BlockId × Function :=
  (function.blocks.length, { function with blocks := function.blocks ++ [{ name }] })

def block? (function : Function) (id : BlockId) : Option Block :=
  function.blocks[id]?

def blockIds (function : Function) : List BlockId :=
  List.range function.blocks.length

/-- The entry block, if the function has blocks. -/
def entryBlock? (function : Function) : Option BlockId :=
  if function.blocks.isEmpty then none else some 0

def findBlock? (function : Function) (name : String) : Option BlockId :=
  function.blocks.findIdx? fun block => block.name == name

/-- Change one block. -/
def modifyBlock (function : Function) (id : BlockId) (change : Block → Block) : Function :=
  { function with blocks := function.blocks.modify id change }

/-- Changing a block shows in that block and in no other. -/
theorem block?_modifyBlock (function : Function) (id other : BlockId) (change : Block → Block) :
    (function.modifyBlock id change).block? other =
      (function.block? other).map (if id = other then change else fun block => block) := by
  by_cases same : id = other
  · simp [modifyBlock, block?, same]
  · simp [modifyBlock, block?, same]

/-- The number of instructions in all blocks. -/
def instructionCount (function : Function) : Nat :=
  (function.blocks.flatMap Block.instrs).length

/-- The blocks that end in a return. -/
def returningBlocks (function : Function) : List BlockId :=
  function.blockIds.filter fun id => (function.block? id).any Block.isReturning

end Function

end MachineCode
