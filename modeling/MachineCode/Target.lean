/-!
# The target machine

The constants of the target and the options that are fixed when code generation starts.
-/

namespace MachineCode

/-- The order in which a multi-byte field is written. -/
inductive ByteOrder where
  | little
  | big
  deriving DecidableEq, Repr, Inhabited

/-- The options of a code generation run. -/
structure Options where
  /-- The byte order of the encoded instructions. -/
  byteOrder : ByteOrder := .little
  /-- Keep a frame pointer in every function. -/
  keepFramePointer : Bool := false
  /-- The requested stack alignment in bytes. -/
  stackAlignment : UInt32 := 2
  deriving DecidableEq, Repr, Inhabited

namespace Target

def dataLayout : String := "e-m:e-p:16:16-i32:16:32-a:16-n8:16"

def pointerSize : Nat := 2

/-- The size in bytes of the slot that holds a preserved register. -/
def calleeSaveSlotSize : UInt64 := 2

def commentString : String := ";"

/-- The size in bytes of the slot that holds the return address. -/
def returnAddressSize : Int64 := 2

/-- The slot that holds the caller's frame pointer: its size in bytes. -/
def framePointerSlotSize : UInt64 := 2

/-- The slot that holds the caller's frame pointer: its place relative to the frame. -/
def framePointerSlotOffset : Int64 := -4

end Target

/-- The alignment that frame lowering keeps: an alignment of zero counts as one. -/
def Options.alignment (options : Options) : UInt64 :=
  (max options.stackAlignment 1).toUInt64

end MachineCode
