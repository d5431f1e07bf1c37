import MachineCode.Error
import MachineCode.Operand

/-!
# Fixups and relocations

A fixup records a field whose value is not known when its instruction is encoded. A fixup that
refers to a symbol becomes a relocation of the object file; one that refers to a block is
resolved inside the function's section.
-/

namespace MachineCode

/-- The width and the meaning of a field that is filled in later. -/
inductive FixupKind where
  /-- A data value of four bytes. -/
  | data4
  /-- A data value of eight bytes. -/
  | data8
  /-- A section relative value of four bytes. -/
  | secRel4
  /-- A section relative value of eight bytes. -/
  | secRel8
  /-- A distance of two bytes, from the field to a target. -/
  | pcRel2
  deriving DecidableEq, Repr

namespace FixupKind

def code : FixupKind → UInt8
  | .data4 => 0
  | .data8 => 1
  | .secRel4 => 2
  | .secRel8 => 3
  | .pcRel2 => 4

def ofCode (code : UInt8) : Except CodeError FixupKind :=
  match [FixupKind.data4, .data8, .secRel4, .secRel8, .pcRel2].find? (·.code == code) with
  | some kind => .ok kind
  | none => .error (.unmappedFixupKind code)

/-- The size of the field in bytes. -/
def size : FixupKind → Nat
  | .pcRel2 => 2
  | .data4 | .secRel4 => 4
  | .data8 | .secRel8 => 8

/-- Whether the value is relative to the place of the field. -/
def isPcRelative : FixupKind → Bool
  | .pcRel2 => true
  | _ => false

def name : FixupKind → String
  | .data4 => "FK_Data_4"
  | .data8 => "FK_Data_8"
  | .secRel4 => "FK_SecRel_4"
  | .secRel8 => "FK_SecRel_8"
  | .pcRel2 => "FK_PCRel_2"

/-- The type of the relocation that fills in the field, in the numbering of the object file
format. A distance to a block never reaches the object file. -/
def relocationType (kind : FixupKind) (isPcRelative : Bool) : Except CodeError Nat :=
  match kind with
  | .secRel8 => .ok 1
  | .secRel4 => .ok 2
  | .data8 => .ok (if isPcRelative then 24 else 1)
  | .data4 => .ok (if isPcRelative then 2 else 10)
  | .pcRel2 => .error (.unmappedFixupKind kind.code)

end FixupKind

/-- What the value of a field depends on. -/
inductive FixupTarget where
  | symbol (name : String)
  | block (target : BlockId)
  deriving DecidableEq, Repr

def FixupTarget.text : FixupTarget → String
  | .symbol name => "@" ++ name
  | .block target => "bb." ++ target.repr

/-- A field that is filled in later. -/
structure Fixup where
  /-- The offset of the field, from the start of the instruction or of the function. It is exact,
  whereas an object file holds offsets below 4294967296 only. -/
  offset : Nat
  target : FixupTarget
  kind : FixupKind
  deriving DecidableEq, Repr

namespace Fixup

/-- Whether the value is relative to the place of the field. -/
def isPcRelative (fixup : Fixup) : Bool :=
  fixup.kind.isPcRelative

/-- The same fixup for a field that lies farther behind. -/
def shift (fixup : Fixup) (distance : Nat) : Fixup :=
  { fixup with offset := fixup.offset + distance }

/-- The type of the relocation for a fixup. -/
def relocationType (fixup : Fixup) : Except CodeError Nat :=
  fixup.kind.relocationType fixup.isPcRelative

end Fixup

/-- An entry for the object file: a field, the symbol that it depends on, and how. -/
structure Relocation where
  offset : Nat
  symbol : String
  type : Nat
  deriving DecidableEq, Repr

/-- The relocations for the fixups that refer to symbols, in order. -/
def relocationsOf : List Fixup → Except CodeError (List Relocation)
  | [] => .ok []
  | fixup :: rest =>
      match fixup.target with
      | .symbol symbol => do
          let type ← fixup.relocationType
          let relocations ← relocationsOf rest
          .ok ({ offset := fixup.offset, symbol, type } :: relocations)
      | .block _ => relocationsOf rest

end MachineCode
