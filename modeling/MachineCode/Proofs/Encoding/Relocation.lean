import MachineCode.Proofs.Encoding.Reach

/-!
# Relocations of a compiled function

Only calls and loads of 64-bit immediates make fixups that the object file has a relocation for. A
compiled function has relocations exactly if no other instruction refers to a symbol. They are then
those of the calls and loads that refer to symbols, in the order of the code; otherwise the kind of
fixup for which there is no relocation is reported (`compileFunction_relocations`).
-/

namespace MachineCode

/-! ## Relocations of fixups -/

/-- The symbol on which the value of a field depends. -/
def FixupTarget.symbol? : FixupTarget → Option String
  | .symbol name => some name
  | .block _ => none

namespace Relocation

/-- The number of the relocation that fills in a value of 64 bits. -/
def absolute64 : Nat := 1

/-- The number of the relocation that fills in a distance of 32 bits. -/
def relative32 : Nat := 2

end Relocation

namespace Fixup

/-- Whether the object file can express the fixup, or does not have to. -/
def isMapped (fixup : Fixup) : Bool :=
  fixup.target.symbol?.isNone || fixup.kind != .pcRel2

/-- The relocation for a fixup that refers to a symbol. -/
def relocation? (fixup : Fixup) : Option Relocation := do
  let symbol ← fixup.target.symbol?
  let type ← fixup.relocationType.toOption
  some { offset := fixup.offset, symbol, type }

theorem exists_relocationType {fixup : Fixup} (mapped : fixup.kind ≠ .pcRel2) :
    ∃ type, fixup.relocationType = .ok type := by
  rw [relocationType]
  cases kind : fixup.kind with
  | pcRel2 => exact absurd kind mapped
  | _ => exact ⟨_, rfl⟩

end Fixup

/-- Fixups have relocations if all of them are mapped. What is reported otherwise is the kind of a
distance of two bytes. -/
theorem relocationsOf_eq (fixups : List Fixup) :
    relocationsOf fixups =
      if fixups.all Fixup.isMapped then .ok (fixups.filterMap Fixup.relocation?)
      else .error (.unmappedFixupKind 4) := by
  induction fixups with
  | nil => rfl
  | cons fixup rest ih =>
      obtain ⟨offset, target, kind⟩ := fixup
      cases target with
      | block target => exact ih
      | symbol symbol =>
          by_cases unmapped : kind = .pcRel2
          · subst unmapped
            rfl
          · obtain ⟨type, typeEq⟩ := Fixup.exists_relocationType
              (show Fixup.kind ⟨offset, .symbol symbol, kind⟩ ≠ .pcRel2 from unmapped)
            have mapped : Fixup.isMapped ⟨offset, .symbol symbol, kind⟩ = true := by
              simpa [Fixup.isMapped, FixupTarget.symbol?] using unmapped
            have relocation : Fixup.relocation? ⟨offset, .symbol symbol, kind⟩ =
                some { offset, symbol, type } := by
              rw [Fixup.relocation?, typeEq]
              rfl
            rw [List.all_cons, mapped, Bool.true_and, List.filterMap_cons_some relocation,
              relocationsOf, typeEq, ih]
            cases rest.all Fixup.isMapped <;> rfl

/-- Fixups that refer to blocks do not count. -/
theorem relocationsOf_filter (fixups : List Fixup) :
    relocationsOf (fixups.filter fun fixup => fixup.target.symbol?.isSome) =
      relocationsOf fixups := by
  induction fixups with
  | nil => rfl
  | cons fixup rest ih =>
      obtain ⟨offset, target, kind⟩ := fixup
      cases target with
      | block target => exact ih
      | symbol symbol =>
          rw [List.filter_cons_of_pos rfl, relocationsOf, relocationsOf, ih]

/-! ## Relocations of instructions -/

/-- The symbol to which the value field of an instruction refers. -/
def Instr.symbol? (instr : Instr) : Option String :=
  instr.deferred?.bind FixupTarget.symbol?

/-- The relocation of the instruction at an index, if its value is that of a symbol. -/
def relocationAt? (instrs : List Instr) (index : Nat) : Option Relocation := do
  let instr ← instrs[index]?
  let symbol ← instr.symbol?
  some {
    offset := codeLength (instrs.take index) + 4
    symbol
    type := if instr.opcode = .jal then Relocation.relative32 else Relocation.absolute64 }

/-- One relocation for each instruction that refers to a symbol, in the order of the
instructions. -/
def relocationsAt (instrs : List Instr) : List Relocation :=
  (List.range instrs.length).filterMap (relocationAt? instrs)

/-- Only calls and loads of 64-bit immediates refer to symbols. -/
def SymbolsRelocatable (instrs : List Instr) : Prop :=
  ∀ instr ∈ instrs, ∀ symbol, instr.symbol? = some symbol →
    instr.opcode = .jal ∨ instr.opcode = .ldImm64

theorem Opcode.fixupKind_eq_pcRel2_iff (opcode : Opcode) :
    opcode.fixupKind = .pcRel2 ↔ ¬(opcode = .jal ∨ opcode = .ldImm64) := by
  cases opcode <;> decide

/-- Only calls and loads may refer to symbols if the fixup of an instruction is to be mapped. -/
theorem isMapped_fixup_iff {instr : Instr} {target : FixupTarget} (place : Nat)
    (deferred : instr.deferred? = some target) :
    (instr.fixup place target).isMapped = true ↔
      ∀ symbol, instr.symbol? = some symbol → instr.opcode = .jal ∨ instr.opcode = .ldImm64 := by
  rw [Instr.symbol?, deferred, Option.bind_some]
  cases target with
  | block block => exact ⟨fun _ => nofun, fun _ => rfl⟩
  | symbol symbol =>
      have isMappedEq : (instr.fixup place (.symbol symbol)).isMapped =
          (instr.opcode.fixupKind != .pcRel2) := rfl
      rw [isMappedEq, bne_iff_ne, Ne, Opcode.fixupKind_eq_pcRel2_iff, not_not]
      exact ⟨fun relocates _ _ => relocates, fun each => each symbol rfl⟩

theorem isMapped_fixupsAt_iff (start : Nat) (instrs : List Instr) :
    (fixupsAt start instrs).all Fixup.isMapped = true ↔ SymbolsRelocatable instrs := by
  rw [List.all_eq_true]
  constructor
  · intro mapped instr member symbol refers
    obtain ⟨index, inBounds, instrEq⟩ := List.getElem_of_mem member
    obtain ⟨target, deferred, -⟩ := Option.bind_eq_some_iff.mp refers
    have found : fixupAt? start instrs index =
        some (instr.fixup (start + codeLength (instrs.take index)) target) := by
      rw [fixupAt?, List.getElem?_eq_getElem inBounds, instrEq]
      simp [deferred]
    have isFixup := List.mem_filterMap.mpr ⟨index, List.mem_range.mpr inBounds, found⟩
    exact (isMapped_fixup_iff _ deferred).mp (mapped _ isFixup) symbol refers
  · intro relocatable fixup member
    obtain ⟨index, -, found⟩ := List.mem_filterMap.mp member
    obtain ⟨instr, target, instrFound, deferred, rfl⟩ := fixupAt?_eq_some found
    exact (isMapped_fixup_iff _ deferred).mpr
      (relocatable instr (List.mem_of_getElem? instrFound))

/-- The relocation of a call or a load for its fixup. -/
theorem relocation?_fixup {instr : Instr}
    (relocates : instr.opcode = .jal ∨ instr.opcode = .ldImm64) (place : Nat) (symbol : String) :
    (instr.fixup place (.symbol symbol)).relocation? = some {
      offset := place + 4
      symbol
      type :=
        if instr.opcode = .jal then Relocation.relative32 else Relocation.absolute64 } := by
  rw [Instr.fixup]
  rcases relocates with isCall | isLoad
  · rw [isCall]
    rfl
  · rw [isLoad]
    rfl

theorem filterMap_relocation?_fixupsAt {instrs : List Instr}
    (relocatable : SymbolsRelocatable instrs) :
    (fixupsAt 0 instrs).filterMap Fixup.relocation? = relocationsAt instrs := by
  rw [fixupsAt, List.filterMap_filterMap, relocationsAt]
  refine List.filterMap_congr fun index _ => ?_
  rw [fixupAt?, relocationAt?]
  cases found : instrs[index]? with
  | none => rfl
  | some instr =>
      have relocates := relocatable instr (List.mem_of_getElem? found)
      rw [Instr.symbol?] at relocates
      rw [Nat.zero_add]
      simp only [Option.bind_eq_bind, Option.bind_some, Instr.symbol?]
      cases deferred : instr.deferred? with
      | none => rfl
      | some target =>
          cases target with
          | block block => rfl
          | symbol symbol =>
              exact relocation?_fixup (relocates symbol (by rw [deferred]; rfl)) _ symbol

/-- The fixups of instructions have relocations exactly if only calls and loads refer to symbols. -/
theorem relocationsOf_fixupsAt (instrs : List Instr) :
    (SymbolsRelocatable instrs ∧
        relocationsOf (fixupsAt 0 instrs) = .ok (relocationsAt instrs)) ∨
      ¬SymbolsRelocatable instrs ∧
        relocationsOf (fixupsAt 0 instrs) = .error (.unmappedFixupKind 4) := by
  have mapped_iff := isMapped_fixupsAt_iff 0 instrs
  rw [relocationsOf_eq]
  by_cases relocatable : SymbolsRelocatable instrs
  · rw [if_pos (mapped_iff.mpr relocatable), filterMap_relocation?_fixupsAt relocatable]
    exact .inl ⟨relocatable, rfl⟩
  · rw [if_neg (mapped_iff.not.mpr relocatable)]
    exact .inr ⟨relocatable, rfl⟩

/-! ## Places in the code -/

theorem encodeInstrs_append {order : ByteOrder} {start : Nat} {left right : List Instr}
    {code following : Code} (leftRan : encodeInstrs order start left = .ok code)
    (rightRan : encodeInstrs order (start + code.bytes.length) right = .ok following) :
    encodeInstrs order start (left ++ right) = .ok {
      bytes := code.bytes ++ following.bytes
      fixups := code.fixups ++ following.fixups
      instructions := code.instructions + following.instructions } := by
  induction left generalizing start code with
  | nil =>
      cases leftRan
      rw [Nat.zero_add]
      exact rightRan
  | cons instr rest ih =>
      obtain ⟨encoded, instrEncoded, leftRan⟩ := exists_of_bind_eq_ok leftRan
      obtain ⟨others, restEncoded, returned⟩ := exists_of_bind_eq_ok leftRan
      cases returned
      rw [List.length_append, ← Nat.add_assoc] at rightRan
      rw [List.cons_append, encodeInstrs, instrEncoded]
      change (encodeInstrs order (start + encoded.bytes.length) (rest ++ right) >>= _) = _
      rw [ih restEncoded rightRan]
      simp only [List.append_assoc, Nat.add_assoc]
      rfl

/-- The code of blocks is the code of their instructions, one after the other. -/
theorem encodeInstrs_of_encodeBlocks {order : ByteOrder} {start : Nat} {blocks : List Block}
    {stream : CodeStream} (ran : encodeBlocks order start blocks = .ok stream) :
    encodeInstrs order start (blocks.flatMap Block.instrs) = .ok stream.toCode := by
  induction blocks generalizing start stream with
  | nil =>
      cases ran
      rfl
  | cons block rest ih =>
      obtain ⟨code, blockEncoded, ran⟩ := exists_of_bind_eq_ok ran
      obtain ⟨following, restEncoded, returned⟩ := exists_of_bind_eq_ok ran
      cases returned
      exact encodeInstrs_append blockEncoded (ih restEncoded)

/-! ## Compiled functions -/

/-- A compiled function has relocations exactly if no instruction of its code but calls and loads
refers to a symbol. They are then those of the instructions that refer to symbols, four bytes behind
the places at which these stand in the code. Otherwise the fixup kind of a short distance is
reported. Fixups that refer to blocks do not count. -/
theorem compileFunction_relocations {options : Options} {function lowered : Function}
    {compiled : CompiledFunction}
    (ran : (compileFunction options).run function = .ok compiled lowered) :
    ((∃ relocations, compiled.relocations = .ok relocations) ↔
        SymbolsRelocatable (lowered.blocks.flatMap Block.instrs)) ∧
      (∀ relocations, compiled.relocations = .ok relocations →
        relocations = relocationsAt (lowered.blocks.flatMap Block.instrs)) ∧
      (∀ reason, compiled.relocations = .error reason → reason = .unmappedFixupKind 4) ∧
      compiled.relocations =
        relocationsOf (compiled.fixups.filter fun fixup => fixup.target.symbol?.isSome) ∧
      ∀ index instr, (lowered.blocks.flatMap Block.instrs)[index]? = some instr →
        StandsAt options.byteOrder compiled.bytes
          (codeLength ((lowered.blocks.flatMap Block.instrs).take index)) instr := by
  have encoded := encodeBlocks_of_compileFunction ran
  have placed := @IsPlaced.of_encodeBlocks [] _ _ _ encoded
  have stands {index : Nat} {instr : Instr} :=
    @StandsAt.of_encodeInstrs _ instr _ index _ _ (encodeInstrs_of_encodeBlocks encoded)
  have relocationsEq : compiled.relocations =
      relocationsOf (fixupsAt 0 (lowered.blocks.flatMap Block.instrs)) :=
    congrArg relocationsOf placed.fixups
  rcases relocationsOf_fixupsAt (lowered.blocks.flatMap Block.instrs) with
    ⟨relocatable, succeeds⟩ | ⟨unrelocatable, fails⟩
  · rw [succeeds] at relocationsEq
    refine ⟨⟨fun _ => relocatable, fun _ => ⟨_, relocationsEq⟩⟩, fun relocations found => ?_,
      fun reason failed => ?_, (relocationsOf_filter _).symm, fun _ _ => stands⟩
    · cases relocationsEq.symm.trans found
      rfl
    · cases relocationsEq.symm.trans failed
  · rw [fails] at relocationsEq
    refine ⟨⟨?_, fun relocatable => absurd relocatable unrelocatable⟩,
      fun relocations found => ?_, fun reason failed => ?_, (relocationsOf_filter _).symm,
      fun _ _ => stands⟩
    · rintro ⟨_, found⟩
      cases relocationsEq.symm.trans found
    · cases relocationsEq.symm.trans found
    · cases relocationsEq.symm.trans failed
      rfl

/-- A function that moves the address of a table into a register of 16 bits. -/
def copyingAddress : Function where
  name := "copyingAddress"
  blocks := [
    { name := "start"
      instrs := [
        { opcode := .jal, operands := [.symbol "callee"] },
        { opcode := .mov16ri, operands := [.define .sr, .symbol "table"] },
        { opcode := .ret }] }]

def copyingAddressLowered : Function :=
  { copyingAddress with frame := { framePointer? := some false } }

def copyingAddressCompiled : CompiledFunction where
  name := "copyingAddress"
  relaxation := {}
  bytes := [
    0x48, 0, 0, 0, 0, 0, 0, 0,
    0x21, 0x02, 0, 0, 0, 0, 0, 0,
    0x50, 0, 0, 0, 0, 0, 0, 0]
  fixups := [
    { offset := 4, target := .symbol "callee", kind := .secRel4 },
    { offset := 12, target := .symbol "table", kind := .pcRel2 }]
  instructions := 3
  blockOffsets := [0]

theorem compileFunction_relocations_referring :
    (compileFunction {}).run referring = .ok referringCompiled referringLowered ∧
      SymbolsRelocatable (referringLowered.blocks.flatMap Block.instrs) ∧
      relocationsAt (referringLowered.blocks.flatMap Block.instrs) =
        [{ offset := 4, symbol := "table", type := 1 },
          { offset := 28, symbol := "callee", type := 2 }] ∧
      (compileFunction {}).run copyingAddress =
        .ok copyingAddressCompiled copyingAddressLowered ∧
      ¬SymbolsRelocatable (copyingAddressLowered.blocks.flatMap Block.instrs) ∧
      copyingAddressCompiled.relocations = .error (.unmappedFixupKind 4) := by
  have ran : (compileFunction {}).run referring = .ok referringCompiled referringLowered := by
    decide +kernel
  have copied : (compileFunction {}).run copyingAddress =
      .ok copyingAddressCompiled copyingAddressLowered := by
    decide +kernel
  obtain ⟨relocates, relocationsEq, -, -⟩ := compileFunction_relocations ran
  obtain ⟨fails, -, -, -⟩ := compileFunction_relocations copied
  refine ⟨ran, relocates.mp ⟨_, rfl⟩, (relocationsEq _ rfl).symm, copied, ?_, rfl⟩
  rw [← fails]
  rintro ⟨_, found⟩
  contradiction

end MachineCode
