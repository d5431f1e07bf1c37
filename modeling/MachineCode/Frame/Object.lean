import MachineCode.Error
import MachineCode.Operand

/-!
# Frames

The frame of a function: its size, its objects, and the facts on which the choice of a frame
pointer depends. Ordinary objects are numbered from zero upwards and fixed objects from minus
one downwards, so a frame index never changes once it has been given out.
-/

namespace MachineCode

/-- A stack slot, placed relative to the frame. -/
structure FrameObject where
  size : UInt64
  offset : Int64
  deriving DecidableEq, Repr

/-- The frame of a function. -/
structure Frame where
  /-- The size of the whole frame in bytes. -/
  stackSize : UInt64 := 0
  /-- Whether the frame holds objects whose size is known only at run time. -/
  hasVarSizedObjects : Bool := false
  /-- Whether the address of the frame escapes. -/
  isAddressTaken : Bool := false
  /-- The distance from the frame pointer to the local area. -/
  offsetAdjustment : Int64 := 0
  objects : List FrameObject := []
  fixedObjects : List FrameObject := []
  /-- Whether the function keeps a frame pointer, once that has been decided. -/
  framePointer? : Option Bool := none
  deriving DecidableEq, Repr, Inhabited

namespace Frame

def objectIndex (position : Nat) : FrameIndex :=
  Int32.ofNat position

def fixedIndex (position : Nat) : FrameIndex :=
  -Int32.ofNat (position + 1)

/-- Add an ordinary object and give its index. -/
def addObject (frame : Frame) (object : FrameObject) : FrameIndex × Frame :=
  (objectIndex frame.objects.length, { frame with objects := frame.objects ++ [object] })

/-- Add a fixed object and give its index. -/
def addFixedObject (frame : Frame) (object : FrameObject) : FrameIndex × Frame :=
  (fixedIndex frame.fixedObjects.length,
    { frame with fixedObjects := frame.fixedObjects ++ [object] })

/-- The lowest index of an object. -/
def lowestIndex (frame : Frame) : FrameIndex :=
  -Int32.ofNat frame.fixedObjects.length

def object? (frame : Frame) (index : FrameIndex) : Option FrameObject :=
  if index.isFixed then
    frame.fixedObjects[(-index.toInt - 1).toNat]?
  else
    frame.objects[index.toInt.toNat]?

/-- The object with the given index, or the report that there is none. -/
def object (frame : Frame) (index : FrameIndex) : Except CodeError FrameObject :=
  match frame.object? index with
  | some object => .ok object
  | none => .error (.unknownFrameIndex index)

end Frame

end MachineCode
