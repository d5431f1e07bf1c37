import MachineCode.Proofs.Encoding.Placement
import MachineCode.Proofs.Relaxation.Solution

/-!
# Reach of short branches in the code

Relaxation measures code by layout sizes, and the code itself is packed into words that are longer.
Every instruction takes between two and four bytes of code for each byte of its layout size, so a
branch goes between two and four times as far in the code as in the layout. That a short branch is
within 511 bytes of its target is therefore true in the layout only; in the code it is within 2040.
In the same way, the branch of an expanded pair skips the long jump behind it by the bytes of the
layout, while in the code the two are words that follow one another.
-/

namespace MachineCode

open Relaxation

/-! ## Places of instructions -/

/-- The position behind an instruction. -/
def Position.next (position : Position) : Position :=
  { position with index := position.index + 1 }

namespace Layout

/-- The instructions that come before a position. -/
def leading (blocks : List Block) (position : Position) : List Instr :=
  (blocks.take position.block).flatMap Block.instrs ++
    (instrsOf blocks position.block).take position.index

/-- The place in the code at which the instruction at a position starts. -/
def codeAddress (blocks : List Block) (position : Position) : Nat :=
  codeLength (leading blocks position)

@[simp] theorem leading_nil (position : Position) : leading [] position = [] := by
  simp [leading, instrsOf]

@[simp] theorem leading_cons_zero (block : Block) (rest : List Block) (index : Nat) :
    leading (block :: rest) ⟨0, index⟩ = block.instrs.take index := by
  simp [leading, instrsOf]

@[simp] theorem leading_cons_succ (block : Block) (rest : List Block) (id : BlockId)
    (index : Nat) :
    leading (block :: rest) ⟨id + 1, index⟩ = block.instrs ++ leading rest ⟨id, index⟩ := by
  simp [leading, instrsOf]

theorem leading_next {blocks : List Block} {position : Position} {instr : Instr}
    (found : instr? blocks position = some instr) :
    leading blocks position.next = leading blocks position ++ [instr] := by
  rw [instr?] at found
  rw [leading, leading, Position.next, List.take_add_one, found, Option.toList_some,
    List.append_assoc]

/-- All positions cut the same code. -/
theorem leading_prefix (blocks : List Block) (position : Position) :
    leading blocks position <+: blocks.flatMap Block.instrs := by
  obtain ⟨id, index⟩ := position
  induction blocks generalizing id with
  | nil => simp
  | cons block rest ih =>
      rw [List.flatMap_cons]
      cases id with
      | zero =>
          rw [leading_cons_zero]
          exact (List.take_prefix index block.instrs).trans (List.prefix_append _ _)
      | succ id =>
          rw [leading_cons_succ]
          exact (List.prefix_append_right_inj _).mpr (ih id)

theorem layoutSize_flatMap (blocks : List Block) :
    Instr.layoutSize (blocks.flatMap Block.instrs) = totalSize (blocks.map Block.size) := by
  induction blocks with
  | nil => rfl
  | cons block rest ih =>
      rw [List.flatMap_cons, Instr.layoutSize_append, ih, List.map_cons, totalSize_cons, Block.size]

theorem layoutSize_leading (blocks : List Block) (position : Position) :
    Instr.layoutSize (leading blocks position) = address blocks position := by
  rw [leading, Instr.layoutSize_append, layoutSize_flatMap, address, blockAddress]

/-- The start of a block is the position of its first instruction. -/
theorem address_start (blocks : List Block) (id : BlockId) :
    address blocks ⟨id, 0⟩ = blockAddress blocks id := by
  simp [address]

theorem address_next {blocks : List Block} {position : Position} {instr : Instr}
    (found : instr? blocks position = some instr) :
    address blocks position.next = address blocks position + instr.size := by
  rw [← layoutSize_leading, leading_next found, Instr.layoutSize_append, layoutSize_leading]
  rfl

theorem codeAddress_next {blocks : List Block} {position : Position} {instr : Instr}
    (found : instr? blocks position = some instr) :
    codeAddress blocks position.next =
      codeAddress blocks position + instr.opcode.encodedLength := by
  rw [codeAddress, leading_next found, codeLength_append, codeAddress]
  rfl

end Layout

theorem codeAddress_of_blockOffsets {order : ByteOrder} {blocks : List Block}
    {stream : CodeStream} {target : BlockId} {start : Nat}
    (ran : encodeBlocks order 0 blocks = .ok stream)
    (found : stream.blockOffsets[target]? = some start) :
    target < blocks.length ∧ start = Layout.codeAddress blocks ⟨target, 0⟩ := by
  rw [@blockOffsets_eq _ [] _ _ ran, List.getElem?_map] at found
  obtain ⟨id, idFound, rfl⟩ := Option.map_eq_some_iff.mp found
  obtain ⟨inBounds, rfl⟩ := List.getElem?_eq_some_iff.mp idFound
  rw [List.length_range] at inBounds
  refine ⟨inBounds, ?_⟩
  simp [Layout.codeAddress, Layout.leading]

/-! ## Code at a place -/

/-- The code of an instruction stands at a place of a stream. -/
def StandsAt (order : ByteOrder) (bytes : List UInt8) (place : Nat) (instr : Instr) : Prop :=
  ∃ front encoded back, instr.encode order = .ok encoded ∧
    bytes = front ++ encoded.bytes ++ back ∧ front.length = place

namespace StandsAt

variable {order : ByteOrder} {bytes : List UInt8} {place : Nat} {instr : Instr}

theorem append_right (stands : StandsAt order bytes place instr) (more : List UInt8) :
    StandsAt order (bytes ++ more) place instr := by
  obtain ⟨front, encoded, back, encodes, rfl, frontLength⟩ := stands
  exact ⟨front, encoded, back ++ more, encodes, List.append_assoc .., frontLength⟩

theorem append_left (stands : StandsAt order bytes place instr) (before : List UInt8) :
    StandsAt order (before ++ bytes) (before.length + place) instr := by
  obtain ⟨front, encoded, back, encodes, rfl, rfl⟩ := stands
  exact ⟨before ++ front, encoded, back, encodes, by simp only [List.append_assoc],
    List.length_append⟩

theorem of_encodeInstrs {start index : Nat} {instrs : List Instr} {code : Code}
    (ran : encodeInstrs order start instrs = .ok code) (found : instrs[index]? = some instr) :
    StandsAt order code.bytes (codeLength (instrs.take index)) instr := by
  induction instrs generalizing start index code with
  | nil => contradiction
  | cons head rest ih =>
      obtain ⟨encoded, headEncoded, ran⟩ := exists_of_bind_eq_ok ran
      obtain ⟨following, restEncoded, returned⟩ := exists_of_bind_eq_ok ran
      cases returned
      cases index with
      | zero =>
          cases found
          exact ⟨[], encoded, following.bytes, headEncoded, rfl, rfl⟩
      | succ index =>
          rw [List.take_succ_cons, codeLength_cons, ← (Instr.encode_fixups headEncoded).1]
          exact (ih restEncoded found).append_left encoded.bytes

theorem of_encodeBlocks {before : List UInt8} {blocks : List Block} {stream : CodeStream}
    {position : Position} (ran : encodeBlocks order before.length blocks = .ok stream)
    (found : Layout.instr? blocks position = some instr) :
    StandsAt order stream.bytes (Layout.codeAddress blocks position) instr := by
  obtain ⟨id, index⟩ := position
  induction blocks generalizing before id stream with
  | nil => contradiction
  | cons block rest ih =>
      obtain ⟨code, blockEncoded, ran⟩ := exists_of_bind_eq_ok ran
      obtain ⟨following, restEncoded, returned⟩ := exists_of_bind_eq_ok ran
      cases returned
      rw [Layout.codeAddress]
      cases id with
      | zero =>
          rw [Layout.leading_cons_zero]
          exact (of_encodeInstrs blockEncoded found).append_right following.bytes
      | succ id =>
          have length := (IsPlaced.of_encodeInstrs blockEncoded).length
          rw [← List.length_append] at restEncoded
          rw [Layout.leading_cons_succ, codeLength_append, ← length]
          exact (ih restEncoded id found).append_left code.bytes

end StandsAt

/-! ## Distances -/

/-- An instruction takes two to four bytes of code for each byte of its layout size. -/
theorem Opcode.encodedLength_bounds (opcode : Opcode) :
    2 * opcode.size ≤ opcode.encodedLength ∧ opcode.encodedLength ≤ 4 * opcode.size := by
  cases opcode <;> decide

theorem codeLength_bounds (instrs : List Instr) :
    2 * Instr.layoutSize instrs ≤ codeLength instrs ∧
      codeLength instrs ≤ 4 * Instr.layoutSize instrs := by
  induction instrs with
  | nil => decide
  | cons instr rest ih =>
      have first := instr.opcode.encodedLength_bounds
      rw [Instr.layoutSize_cons, codeLength_cons, Instr.size]
      omega

theorem Instr.two_dvd_layoutSize (instrs : List Instr) : 2 ∣ Instr.layoutSize instrs := by
  induction instrs with
  | nil => decide
  | cons instr rest ih =>
      have first : 2 ∣ instr.opcode.size := by cases instr.opcode <;> decide
      exact Nat.dvd_add first ih

/-- A way through the code goes in the same direction as in the layout, two to four times as far. -/
structure Stretches (layoutWay codeWay : Int) : Prop where
  forward : 0 ≤ layoutWay → 2 * layoutWay ≤ codeWay ∧ codeWay ≤ 4 * layoutWay
  backward : layoutWay ≤ 0 → 4 * layoutWay ≤ codeWay ∧ codeWay ≤ 2 * layoutWay

/-- The way from a branch to its target, in the layout and in the code. -/
structure InShortReach (layoutWay codeWay : Int) : Prop extends Stretches layoutWay codeWay where
  layout : -512 ≤ layoutWay ∧ layoutWay ≤ 511
  code : -2040 ≤ codeWay ∧ codeWay ≤ 2040

/-- Between two cuts of the same code lies a stretch of instructions. -/
theorem stretches_of_prefix {left right whole : List Instr} (leftCut : left <+: whole)
    (rightCut : right <+: whole) :
    Stretches ((Instr.layoutSize right : Int) - Instr.layoutSize left)
      ((codeLength right : Int) - codeLength left) := by
  rcases List.prefix_or_prefix_of_prefix leftCut rightCut with ⟨between, rfl⟩ | ⟨between, rfl⟩
  all_goals
    have bounds := codeLength_bounds between
    rw [Instr.layoutSize_append, codeLength_append]
    constructor <;> intro _ <;> omega

/-- A branch that is within 511 bytes in the layout is within 2040 bytes in the code. -/
theorem inShortReach_of_distance_le {blocks : List Block} {position : Position}
    {target : BlockId} (near : Layout.distance blocks position target ≤ 511) :
    InShortReach ((Layout.blockAddress blocks target : Int) - Layout.address blocks position)
      ((Layout.codeAddress blocks ⟨target, 0⟩ : Int) - Layout.codeAddress blocks position) := by
  have stretches := stretches_of_prefix (Layout.leading_prefix blocks position)
    (Layout.leading_prefix blocks ⟨target, 0⟩)
  have evenBranch := Instr.two_dvd_layoutSize (Layout.leading blocks position)
  have evenTarget := Instr.two_dvd_layoutSize (Layout.leading blocks ⟨target, 0⟩)
  rw [Layout.layoutSize_leading] at evenBranch evenTarget
  rw [Layout.layoutSize_leading, Layout.layoutSize_leading, Layout.address_start] at stretches
  rw [Layout.address_start] at evenTarget
  rw [Layout.distance] at near
  have forward := stretches.forward
  have backward := stretches.backward
  refine ⟨stretches, by omega, ?_⟩
  rw [Layout.codeAddress, Layout.codeAddress]
  omega

/-! ## Expanded pairs -/

/-- A conditional branch that skips the long jump behind it, at a position of encoded code. In the
layout, the bytes that it skips from its end on are those of the jump. In the code, the jump is the
word behind the word of the branch. -/
structure SkipsJump (order : ByteOrder) (blocks : List Block) (bytes : List UInt8)
    (position : Position) (branch jump : Instr) : Prop where
  branchFound : Layout.instr? blocks position = some branch
  jumpFound : Layout.instr? blocks position.next = some jump
  lands : Layout.address blocks position + branch.size + 4 =
    Layout.address blocks position.next.next
  branchStands : StandsAt order bytes (Layout.codeAddress blocks position) branch
  jumpStands : StandsAt order bytes (Layout.codeAddress blocks position + 8) jump
  ends : Layout.codeAddress blocks position.next.next =
    Layout.codeAddress blocks position + 8 + 8

theorem SkipsJump.of_encodeBlocks {order : ByteOrder} {blocks : List Block}
    {stream : CodeStream} {position : Position} {branch jump : Instr}
    (ran : encodeBlocks order 0 blocks = .ok stream)
    (branchFound : Layout.instr? blocks position = some branch)
    (jumpFound : Layout.instr? blocks position.next = some jump)
    (isBranch : branch.opcode = .jcc) (isJump : jump.opcode = .bi) :
    SkipsJump order blocks stream.bytes position branch jump := by
  have jumpAddress := Layout.codeAddress_next branchFound
  have endAddress := Layout.codeAddress_next jumpFound
  rw [isBranch] at jumpAddress
  rw [isJump, jumpAddress] at endAddress
  have branchStands := @StandsAt.of_encodeBlocks _ _ [] _ _ _ ran branchFound
  have jumpStands := @StandsAt.of_encodeBlocks _ _ [] _ _ _ ran jumpFound
  rw [jumpAddress] at jumpStands
  refine ⟨branchFound, jumpFound, ?_, branchStands, jumpStands, endAddress⟩
  rw [Layout.address_next jumpFound, Layout.address_next branchFound, Instr.size, Instr.size,
    isJump, Opcode.size]

/-- The branch that skips a long jump if a condition holds. -/
def Instr.skip (condition : Int64) : Instr :=
  { opcode := .jcc, operands := [.immediate 4, .immediate condition] }

def Instr.longJump (target : BlockId) : Instr :=
  { opcode := .bi, operands := [.block target] }

/-- The long form of a conditional branch to a block skips a long jump to the block. -/
theorem exists_pair_of_longForm? {instr : Instr} (conditional : instr.opcode = .jcc)
    (hasLong : instr.longForm?.isSome) :
    ∃ target condition, instr.operands[0]? = some (.block target) ∧
      instr.longForm? = some [.skip condition, .longJump target] := by
  unfold Instr.longForm? at hasLong ⊢
  split at hasLong
  next isJump _ =>
    rw [isJump] at conditional
    contradiction
  next target code rest opcodeEq operandsEq =>
    rw [Option.isSome_map] at hasLong
    obtain ⟨condition, known⟩ := Option.isSome_iff_exists.mp hasLong
    refine ⟨target, condition.inverse.code, ?_, ?_⟩
    · rw [operandsEq]
      rfl
    · rw [known]
      rfl
  next => contradiction

/-- Where a conditional branch has been expanded, a branch skips a long jump. -/
theorem exists_skipsJump_of_chosen {order : ByteOrder} {blocks : List Block}
    {chosen : Finset Position} {stream : CodeStream} {position : Position} {instr : Instr}
    (ran : encodeBlocks order 0 (Choice.expandBlocks chosen blocks) = .ok stream)
    (hasLong : Choice.HasLongForms chosen blocks) (isChosen : position ∈ chosen)
    (found : Layout.instr? blocks position = some instr) (conditional : instr.opcode = .jcc) :
    ∃ target condition, instr.operands[0]? = some (.block target) ∧
      SkipsJump order (Choice.expandBlocks chosen blocks) stream.bytes
        (Choice.moved chosen blocks position) (.skip condition) (.longJump target) := by
  obtain ⟨target, condition, targets, long⟩ :=
    exists_pair_of_longForm? conditional (hasLong position isChosen instr found)
  refine ⟨target, condition, targets, ?_⟩
  obtain ⟨site, rfl, rfl⟩ := Site.exists_fill_of_instr? found
  have expanded : Choice.expandInstr chosen site.position instr =
      [.skip condition, .longJump target] := by
    rw [Choice.expandInstr, if_pos isChosen, long]
    rfl
  rw [Choice.expandBlocks_fill, expanded] at ran ⊢
  rw [Choice.moved_fill]
  apply SkipsJump.of_encodeBlocks ran (Site.instr?_fill_cons _ _ _) _ rfl rfl
  simp [Layout.instr?, Position.next, Site.position]

/-! ## Compiled functions -/

/-- The code of every short branch to a block stands at its place. The block starts within the reach
of the branch in the layout, and two to four times as far away in the code, which is within 2040
bytes. Where relaxation has expanded a conditional branch, the short branch skips the long jump in
the layout, and in the code the long jump is the word behind it. -/
theorem compileFunction_reach {options : Options} {function lowered : Function}
    {compiled : CompiledFunction}
    (ran : (compileFunction options).run function = .ok compiled lowered) :
    (∀ (position : Position) (instr : Instr) (target : BlockId) (start : Nat),
      Layout.instr? lowered.blocks position = some instr →
      (instr.opcode = .jcc ∨ instr.opcode = .jmp) →
      instr.operands[0]? = some (.block target) →
      compiled.blockOffsets[target]? = some start →
        StandsAt options.byteOrder compiled.bytes (Layout.codeAddress lowered.blocks position)
          instr ∧
        InShortReach
          ((Layout.blockAddress lowered.blocks target : Int) -
            Layout.address lowered.blocks position)
          ((start : Int) - Layout.codeAddress lowered.blocks position)) ∧
    ∃ framed chosen,
      (lowerFrame options).run function = .ok () framed ∧
      lowered.blocks = Choice.expandBlocks chosen framed.blocks ∧
      compiled.relaxation.expanded = chosen.card ∧
      ∀ position ∈ chosen, ∃ instr,
        Layout.instr? framed.blocks position = some instr ∧
        (instr.opcode = .jmp ∨ instr.opcode = .jcc ∧ ∃ target condition,
          instr.operands[0]? = some (.block target) ∧
          SkipsJump options.byteOrder lowered.blocks compiled.bytes
            (Choice.moved chosen framed.blocks position) (.skip condition) (.longJump target)) := by
  obtain ⟨framed, framedRan, relaxedRan, encoded⟩ := exists_framed_of_compileFunction ran
  obtain ⟨run, settled, -⟩ := relaxBranches_run_ok relaxedRan
  constructor
  · intro position instr target start found short targets starts
    obtain ⟨known, rfl⟩ := codeAddress_of_blockOffsets encoded starts
    have near := distance_le_of_settled settled found (isRelaxable_of_block short targets)
      targets known
    exact ⟨@StandsAt.of_encodeBlocks _ _ [] _ _ _ encoded found, inShortReach_of_distance_le near⟩
  · obtain ⟨chosen, forced, blocksEq, cardEq⟩ := (forced_empty framed.blocks).expandAll
      (Choice.expandBlocks_empty framed.blocks).symm run
    rw [Finset.card_empty, Nat.zero_add] at cardEq
    refine ⟨framed, chosen, framedRan, blocksEq, cardEq.symm, ?_⟩
    intro position isChosen
    obtain ⟨instr, found, relaxable⟩ := forced.candidate position isChosen
    refine ⟨instr, found, ?_⟩
    rcases opcode_of_isRelaxable relaxable with conditional | jump
    · rw [blocksEq] at encoded ⊢
      exact .inr ⟨conditional,
        exists_skipsJump_of_chosen encoded forced.hasLong isChosen found conditional⟩
    · exact .inl jump

/-- A branch over two blocks of loads that is out of reach, and a jump over the first of them, which
is in reach in the layout only. -/
def stretched : Function where
  name := "stretched"
  blocks :=
    let load : Instr := { opcode := .ldImm64, operands := [.define .sr, .immediate 0] }
    [{ name := "start"
       instrs := { opcode := .jcc, operands := [.block 2, .immediate Condition.equal.code] } ::
        { opcode := .jmp, operands := [.block 1] } :: List.replicate 32 load },
      { name := "middle", instrs := List.replicate 32 load },
      { name := "done", instrs := [{ opcode := .ret }] }]

def stretchedLowered : Function where
  name := "stretched"
  frame := { framePointer? := some false }
  blocks :=
    let load : Instr := { opcode := .ldImm64, operands := [.define .sr, .immediate 0] }
    [{ name := "start"
       instrs := .skip Condition.notEqual.code :: .longJump 2 ::
        { opcode := .jmp, operands := [.block 1] } :: List.replicate 32 load },
      { name := "middle", instrs := List.replicate 32 load },
      { name := "done", instrs := [{ opcode := .ret }] }]

def stretchedCompiled : CompiledFunction where
  name := "stretched"
  relaxation := { expanded := 1, iterations := 2 }
  bytes :=
    let load : List UInt8 := [0x18, 0x02, 0, 0, 0, 0, 0, 0, 0, 0, 0, 0, 0, 0, 0, 0]
    [0x40, 0x01, 0, 0, 4, 0, 0, 0] ++ [0x42, 0, 0, 0, 0, 0, 0, 0] ++
      [0x41, 0, 0, 0, 0, 0, 0, 0] ++ (List.replicate 64 load).flatten ++
      [0x50, 0, 0, 0, 0, 0, 0, 0]
  fixups := [
    { offset := 12, target := .block 2, kind := .pcRel2 },
    { offset := 20, target := .block 1, kind := .pcRel2 }]
  instructions := 68
  blockOffsets := [0, 536, 1048]

theorem run_compileFunction_stretched :
    (compileFunction {}).run stretched = .ok stretchedCompiled stretchedLowered := by
  decide +kernel

theorem compileFunction_reach_stretched :
    (compileFunction {}).run stretched = .ok stretchedCompiled stretchedLowered ∧
      StandsAt .little stretchedCompiled.bytes 16 { opcode := .jmp, operands := [.block 1] } ∧
      InShortReach 258 520 ∧
      ∃ framed chosen,
        (lowerFrame {}).run stretched = .ok () framed ∧
        stretchedLowered.blocks = Choice.expandBlocks chosen framed.blocks ∧
        1 = chosen.card ∧
        ∀ position ∈ chosen, ∃ instr,
          Layout.instr? framed.blocks position = some instr ∧
          (instr.opcode = .jmp ∨ instr.opcode = .jcc ∧ ∃ target condition,
            instr.operands[0]? = some (.block target) ∧
            SkipsJump .little stretchedLowered.blocks stretchedCompiled.bytes
              (Choice.moved chosen framed.blocks position) (.skip condition)
              (.longJump target)) := by
  obtain ⟨inReach, expanded⟩ := compileFunction_reach run_compileFunction_stretched
  obtain ⟨stands, reached⟩ :=
    inReach ⟨0, 2⟩ { opcode := .jmp, operands := [.block 1] } 1 536 rfl (.inr rfl) rfl rfl
  have place : Layout.codeAddress stretchedLowered.blocks ⟨0, 2⟩ = 16 := by decide
  have branch : Layout.address stretchedLowered.blocks ⟨0, 2⟩ = 6 := by decide
  have target : Layout.blockAddress stretchedLowered.blocks 1 = 264 := by decide
  rw [place] at stands reached
  rw [branch, target] at reached
  exact ⟨run_compileFunction_stretched, stands, reached, expanded⟩

/-- In the code the jump is 520 bytes away from its target, and four bytes behind the branch is the
middle of the long jump. -/
theorem compileFunction_outOfReach_stretched :
    (compileFunction {}).run stretched = .ok stretchedCompiled stretchedLowered ∧
      (¬ ∀ (position : Position) (instr : Instr) (target : BlockId) (start : Nat),
        Layout.instr? stretchedLowered.blocks position = some instr →
        (instr.opcode = .jcc ∨ instr.opcode = .jmp) →
        instr.operands[0]? = some (.block target) →
        stretchedCompiled.blockOffsets[target]? = some start →
          -512 ≤ (start : Int) - Layout.codeAddress stretchedLowered.blocks position ∧
            (start : Int) - Layout.codeAddress stretchedLowered.blocks position ≤ 511) ∧
      Layout.instr? stretchedLowered.blocks ⟨0, 0⟩ = some (.skip Condition.notEqual.code) ∧
      Layout.instr? stretchedLowered.blocks ⟨0, 1⟩ = some (.longJump 2) ∧
      Layout.codeAddress stretchedLowered.blocks ⟨0, 0⟩ + Opcode.jcc.encodedLength + 4 ≠
        Layout.codeAddress stretchedLowered.blocks ⟨0, 2⟩ := by
  refine ⟨run_compileFunction_stretched, ?_, rfl, rfl, by decide⟩
  intro inReach
  have reached := inReach ⟨0, 2⟩ { opcode := .jmp, operands := [.block 1] } 1 536 rfl (.inr rfl)
    rfl rfl
  exact absurd reached.2 (by decide)

end MachineCode
