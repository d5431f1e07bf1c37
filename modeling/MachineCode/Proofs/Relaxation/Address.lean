import MachineCode.Proofs.Relaxation.Scan
import Mathlib.Data.List.Basic

/-!
# Addresses in the branch layout

The address of a block is the size of the blocks before it, and the address of an instruction
adds the size of the instructions before it in its block. `Layout.distance` is the number of
bytes between a branch and the start of a block. The displacement that a scan computes from its
table of block sizes is this distance whenever the table holds the sizes of the blocks.

A `Site` is a place in the code that can be filled with instructions. It lets a rewrite of one
instruction be written as two fillings of the same site.
-/

namespace MachineCode

/-- The place of an instruction: its block and its index there. -/
structure Position where
  block : BlockId
  index : Nat
  deriving DecidableEq, Repr

/-- Whether a position comes before another in the layout. -/
def Position.Before (position other : Position) : Prop :=
  position.block < other.block ∨ position.block = other.block ∧ position.index < other.index

@[simp] theorem Instr.layoutSize_nil : Instr.layoutSize [] = 0 := rfl

@[simp] theorem Instr.layoutSize_cons (instr : Instr) (rest : List Instr) :
    Instr.layoutSize (instr :: rest) = instr.size + Instr.layoutSize rest := rfl

@[simp] theorem Instr.layoutSize_append (left right : List Instr) :
    Instr.layoutSize (left ++ right) = Instr.layoutSize left + Instr.layoutSize right := by
  simp [Instr.layoutSize]

theorem Instr.layoutSize_take_le (instrs : List Instr) (index : Nat) :
    Instr.layoutSize (instrs.take index) ≤ Instr.layoutSize instrs := by
  calc Instr.layoutSize (instrs.take index)
      ≤ Instr.layoutSize (instrs.take index) + Instr.layoutSize (instrs.drop index) :=
        Nat.le_add_right _ _
    _ = Instr.layoutSize instrs := by
        rw [← Instr.layoutSize_append, List.take_append_drop]

namespace Layout

/-- The instructions of the block with the given identifier. -/
def instrsOf (blocks : List Block) (id : BlockId) : List Instr :=
  (blocks[id]?.map Block.instrs).getD []

def instr? (blocks : List Block) (position : Position) : Option Instr :=
  (instrsOf blocks position.block)[position.index]?

def blockAddress (blocks : List Block) (id : BlockId) : Nat :=
  totalSize ((blocks.take id).map Block.size)

def address (blocks : List Block) (position : Position) : Nat :=
  blockAddress blocks position.block +
    Instr.layoutSize ((instrsOf blocks position.block).take position.index)

/-- The number of bytes between the instruction at a position and the start of a block. -/
def distance (blocks : List Block) (position : Position) (target : BlockId) : Nat :=
  ((blockAddress blocks target : Int) - address blocks position).natAbs

theorem lt_length_of_instr? {blocks : List Block} {position : Position} {instr : Instr}
    (found : instr? blocks position = some instr) : position.block < blocks.length := by
  by_contra outside
  have missing : blocks[position.block]? = none := List.getElem?_eq_none (Nat.le_of_not_lt outside)
  simp [instr?, instrsOf, missing] at found

theorem instrsOf_of_getElem? {blocks : List Block} {id : BlockId} {block : Block}
    (found : blocks[id]? = some block) : instrsOf blocks id = block.instrs := by
  simp [instrsOf, found]

/-- A block ends where the next one starts. -/
theorem blockAddress_succ {blocks : List Block} {id : BlockId} (inBounds : id < blocks.length) :
    blockAddress blocks (id + 1) =
      blockAddress blocks id + Instr.layoutSize (instrsOf blocks id) := by
  obtain ⟨block, found⟩ : ∃ block, blocks[id]? = some block :=
    ⟨blocks[id], List.getElem?_eq_getElem inBounds⟩
  rw [instrsOf_of_getElem? found, blockAddress, List.take_add_one, found]
  simp [blockAddress, Block.size]

/-- The blocks between two identifiers fill the space between their addresses. -/
theorem blockAddress_add_between (blocks : List Block) {first last : BlockId}
    (ordered : first ≤ last) :
    blockAddress blocks first + totalSize (((blocks.map Block.size).take last).drop first) =
      blockAddress blocks last := by
  have split := totalSize_take_add_drop ((blocks.map Block.size).take last) first
  rw [List.take_take, Nat.min_eq_left ordered] at split
  rwa [blockAddress, blockAddress, List.map_take, List.map_take]

theorem blockAddress_mono (blocks : List Block) {first last : BlockId} (ordered : first ≤ last) :
    blockAddress blocks first ≤ blockAddress blocks last := by
  rw [← blockAddress_add_between blocks ordered]
  exact Nat.le_add_right _ _

theorem blockAddress_length (blocks : List Block) :
    blockAddress blocks blocks.length = totalSize (blocks.map Block.size) := by
  simp [blockAddress]

/-- No block lies behind the end of the code. -/
theorem blockAddress_le_totalSize (blocks : List Block) {id : BlockId}
    (inBounds : id ≤ blocks.length) :
    blockAddress blocks id ≤ totalSize (blocks.map Block.size) := by
  rw [← blockAddress_length]
  exact blockAddress_mono blocks inBounds

/-- An instruction lies between the start of its block and the start of the next one. -/
theorem address_le_blockAddress_succ {blocks : List Block} {position : Position}
    (inBounds : position.block < blocks.length) :
    address blocks position ≤ blockAddress blocks (position.block + 1) := by
  rw [address, blockAddress_succ inBounds]
  exact Nat.add_le_add_left (Instr.layoutSize_take_le _ _) _

/-- In small code everything is near everything. -/
theorem distance_le_totalSize {blocks : List Block} {position : Position} {target : BlockId}
    (inBounds : position.block < blocks.length) (known : target < blocks.length) :
    distance blocks position target ≤ totalSize (blocks.map Block.size) := by
  have branchEnd := address_le_blockAddress_succ inBounds
  have branchBound : blockAddress blocks (position.block + 1) ≤ _ :=
    blockAddress_le_totalSize blocks inBounds
  have targetBound := blockAddress_le_totalSize blocks (Nat.le_of_lt known)
  rw [distance]
  omega

/-- The displacement that a scan computes from the block sizes is the distance in the layout. -/
theorem displacement_eq_distance {blocks : List Block} {position : Position} (target : BlockId)
    (inBounds : position.block < blocks.length) :
    Relaxation.displacement (blocks.map Block.size) position.block
      (Instr.layoutSize ((instrsOf blocks position.block).take position.index)) target =
        (distance blocks position target : Int) := by
  rw [Relaxation.displacement]
  split
  next backward =>
    have between := blockAddress_add_between blocks backward
    simp only [distance, address]
    omega
  next forward =>
    have between := blockAddress_add_between blocks (Nat.le_of_not_le forward)
    have blockEnd := address_le_blockAddress_succ inBounds
    have ordered := blockAddress_mono blocks (Nat.lt_of_not_le forward)
    simp only [distance, address, Nat.succ_eq_add_one] at blockEnd ordered ⊢
    omega

end Layout

/-- An item of a list splits the list. -/
theorem exists_append_cons_of_getElem? {item : Type} {items : List item} {index : Nat}
    {value : item} (found : items[index]? = some value) :
    ∃ before after, items = before ++ value :: after ∧ before.length = index := by
  obtain ⟨inBounds, rfl⟩ := List.getElem?_eq_some_iff.mp found
  refine ⟨items.take index, items.drop (index + 1), ?_, ?_⟩
  · rw [← List.drop_eq_getElem_cons inBounds, List.take_append_drop]
  · exact List.length_take_of_le (Nat.le_of_lt inBounds)

/-- A place in the code that can be filled with instructions. -/
structure Site where
  before : List Block
  block : Block
  preceding : List Instr
  following : List Instr
  after : List Block

namespace Site

/-- The code with the given instructions at the site. -/
def fill (site : Site) (instrs : List Instr) : List Block :=
  site.before ++
    { site.block with instrs := site.preceding ++ instrs ++ site.following } :: site.after

/-- The position of the first instruction at the site. -/
def position (site : Site) : Position :=
  ⟨site.before.length, site.preceding.length⟩

@[simp] theorem length_fill (site : Site) (instrs : List Instr) :
    (site.fill instrs).length = site.before.length + (site.after.length + 1) := by
  simp [fill]

theorem getElem?_fill (site : Site) (instrs : List Instr) :
    (site.fill instrs)[site.before.length]? =
      some { site.block with instrs := site.preceding ++ instrs ++ site.following } := by
  simp [fill]

@[simp] theorem instrsOf_fill (site : Site) (instrs : List Instr) :
    Layout.instrsOf (site.fill instrs) site.before.length =
      site.preceding ++ instrs ++ site.following :=
  Layout.instrsOf_of_getElem? (site.getElem?_fill instrs)

theorem instr?_fill_cons (site : Site) (instr : Instr) (instrs : List Instr) :
    Layout.instr? (site.fill (instr :: instrs)) site.position = some instr := by
  simp [Layout.instr?, position]

theorem address_fill (site : Site) (instrs : List Instr) :
    Layout.address (site.fill instrs) site.position =
      totalSize (site.before.map Block.size) + Instr.layoutSize site.preceding := by
  rw [Layout.address, position, instrsOf_fill]
  simp [Layout.blockAddress, fill]

/-- The bytes between a site and the start of a block: back to it, or ahead to it. -/
theorem distance_fill (site : Site) (instrs : List Instr) (target : BlockId) :
    Layout.distance (site.fill instrs) site.position target =
      if target ≤ site.before.length then
        totalSize ((site.before.drop target).map Block.size) + Instr.layoutSize site.preceding
      else
        Instr.layoutSize instrs + Instr.layoutSize site.following +
          totalSize ((site.after.take (target - (site.before.length + 1))).map Block.size) := by
  rw [Layout.distance, address_fill]
  split
  next backward =>
    have addressEq : Layout.blockAddress (site.fill instrs) target =
        totalSize ((site.before.take target).map Block.size) := by
      simp [Layout.blockAddress, fill, List.take_append_of_le_length backward]
    have split := totalSize_take_add_drop (site.before.map Block.size) target
    rw [addressEq, List.map_take, List.map_drop]
    omega
  next forward =>
    obtain ⟨between, rfl⟩ := Nat.exists_eq_add_of_lt (Nat.lt_of_not_le forward)
    have addressEq : Layout.blockAddress (site.fill instrs) (site.before.length + between + 1) =
        totalSize (site.before.map Block.size) +
          (Instr.layoutSize site.preceding + Instr.layoutSize instrs +
            Instr.layoutSize site.following +
            totalSize ((site.after.take between).map Block.size)) := by
      rw [Layout.blockAddress, fill, Nat.add_assoc, List.take_length_add_append]
      simp [Block.size, Nat.add_assoc]
    have behind : site.before.length + between + 1 - (site.before.length + 1) = between := by
      omega
    rw [addressEq, behind]
    omega

/-- What holds of all instructions before and of those that fill a site holds of all instructions
behind. -/
theorem forall_mem_fill {property : Instr → Prop} {site : Site} {old new : List Instr}
    (before : ∀ block ∈ site.fill old, ∀ instr ∈ block.instrs, property instr)
    (filled : ∀ instr ∈ new, property instr) :
    ∀ block ∈ site.fill new, ∀ instr ∈ block.instrs, property instr := by
  intro block isBlock instr isInstr
  rw [fill, List.mem_append, List.mem_cons] at isBlock
  simp only [fill, List.forall_mem_append, List.forall_mem_cons] at before
  rcases isBlock with inFront | rfl | behind
  · exact before.1 block inFront instr isInstr
  · rw [List.mem_append, List.mem_append] at isInstr
    rcases isInstr with (precedes | isNew) | follows
    · exact before.2.1.1.1 instr precedes
    · exact filled instr isNew
    · exact before.2.1.2 instr follows
  · exact before.2.2 block behind instr isInstr

/-- Every instruction stands at a site. -/
theorem exists_fill_of_instr? {blocks : List Block} {position : Position} {instr : Instr}
    (found : Layout.instr? blocks position = some instr) :
    ∃ site : Site, site.fill [instr] = blocks ∧ site.position = position := by
  have inBounds := Layout.lt_length_of_instr? found
  obtain ⟨block, blockFound⟩ : ∃ block, blocks[position.block]? = some block :=
    ⟨blocks[position.block], List.getElem?_eq_getElem inBounds⟩
  rw [Layout.instr?, Layout.instrsOf_of_getElem? blockFound] at found
  obtain ⟨before, after, blocksEq, beforeLength⟩ := exists_append_cons_of_getElem? blockFound
  obtain ⟨preceding, following, instrsEq, precedingLength⟩ :=
    exists_append_cons_of_getElem? found
  refine ⟨⟨before, block, preceding, following, after⟩, ?_, ?_⟩
  · simp [fill, blocksEq, ← instrsEq]
  · simp [Site.position, beforeLength, precedingLength]

end Site

end MachineCode
