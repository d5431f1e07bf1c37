import MachineCode.Compilation
import MachineCode.Proofs.Checked
import Mathlib.Data.List.Basic

/-!
# Where code and fixups lie

The place of an instruction in the code is the length of the instructions before it. Blocks start
at such places, and an instruction whose value is not known yet has one fixup, four bytes behind
its place. The field of a fixup lies inside its instruction, so two fields do not overlap, and it
holds zeros.
-/

namespace MachineCode

/-! ## Places -/

/-- The bytes that instructions take in the code. -/
def codeLength (instrs : List Instr) : Nat :=
  totalSize (instrs.map fun instr => instr.opcode.encodedLength)

@[simp] theorem codeLength_nil : codeLength [] = 0 := rfl

@[simp] theorem codeLength_cons (instr : Instr) (rest : List Instr) :
    codeLength (instr :: rest) = instr.opcode.encodedLength + codeLength rest := rfl

@[simp] theorem codeLength_append (left right : List Instr) :
    codeLength (left ++ right) = codeLength left + codeLength right := by
  rw [codeLength, List.map_append, totalSize_append, codeLength, codeLength]

/-- An instruction ends before every later one starts. -/
theorem codeLength_take_add_le {instrs : List Instr} {instr : Instr} {index later : Nat}
    (found : instrs[index]? = some instr) (before : index < later) :
    codeLength (instrs.take index) + instr.opcode.encodedLength ≤
      codeLength (instrs.take later) := by
  have front : (instrs.take later).take (index + 1) = instrs.take index ++ [instr] := by
    rw [List.take_take, Nat.min_eq_left before, List.take_add_one, found, Option.toList_some]
  rw [← List.take_append_drop (index + 1) (instrs.take later), front, codeLength_append,
    codeLength_append, codeLength_cons, codeLength_nil]
  omega

/-! ## Fixups -/

/-- What has to be known before an operand has a value. -/
def Operand.fixupTarget? : Operand → Option FixupTarget
  | .symbol name => some (.symbol name)
  | .block target => some (.block target)
  | _ => none

namespace Instr

/-- What has to be known before a value can be taken from its source. -/
def deferredAt? (instr : Instr) : ValueSource → Option FixupTarget
  | .operand position => instr.operands[position]?.bind Operand.fixupTarget?
  | _ => none

/-- What has to be known before the value field of an instruction can be filled in. -/
def deferred? (instr : Instr) : Option FixupTarget :=
  instr.opcode.wordSources?.bind fun sources => instr.deferredAt? sources.value

/-- The fixup of an instruction that stands at a place of the code. -/
def fixup (instr : Instr) (place : Nat) (target : FixupTarget) : Fixup :=
  { offset := place + 4, target, kind := instr.opcode.fixupKind }

@[simp] theorem shift_fixup (instr : Instr) (place distance : Nat) (target : FixupTarget) :
    (instr.fixup place target).shift distance = instr.fixup (distance + place) target := by
  simp only [fixup, Fixup.shift, Fixup.mk.injEq, and_self, and_true]
  omega

/-- A field that is filled in later lies inside its instruction. -/
theorem fixupKind_size_le {instr : Instr} {target : FixupTarget}
    (deferred : instr.deferred? = some target) :
    4 + instr.opcode.fixupKind.size ≤ instr.opcode.encodedLength := by
  obtain ⟨sources, known, -⟩ := Option.bind_eq_some_iff.mp deferred
  revert known
  cases instr.opcode <;> decide +revert

end Instr

/-- The fixup of the instruction at an index, if it needs one. -/
def fixupAt? (start : Nat) (instrs : List Instr) (index : Nat) : Option Fixup := do
  let instr ← instrs[index]?
  let target ← instr.deferred?
  some (instr.fixup (start + codeLength (instrs.take index)) target)

/-- The fixups of instructions that start at an offset, in the order of the instructions. -/
def fixupsAt (start : Nat) (instrs : List Instr) : List Fixup :=
  (List.range instrs.length).filterMap (fixupAt? start instrs)

theorem fixupAt?_eq_some {start index : Nat} {instrs : List Instr} {fixup : Fixup}
    (found : fixupAt? start instrs index = some fixup) :
    ∃ instr target, instrs[index]? = some instr ∧ instr.deferred? = some target ∧
      fixup = instr.fixup (start + codeLength (instrs.take index)) target := by
  obtain ⟨instr, instrFound, found⟩ := Option.bind_eq_some_iff.mp found
  obtain ⟨target, deferred, found⟩ := Option.bind_eq_some_iff.mp found
  exact ⟨instr, target, instrFound, deferred, (Option.some.inj found).symm⟩

theorem fixupsAt_cons (start : Nat) (instr : Instr) (rest : List Instr) :
    fixupsAt start (instr :: rest) =
      (instr.deferred?.map (instr.fixup start)).toList ++
        fixupsAt (start + instr.opcode.encodedLength) rest := by
  have first : fixupAt? start (instr :: rest) 0 = instr.deferred?.map (instr.fixup start) := by
    cases deferred : instr.deferred? <;> simp [fixupAt?, deferred]
  have others : fixupAt? start (instr :: rest) ∘ Nat.succ =
      fixupAt? (start + instr.opcode.encodedLength) rest := by
    funext index
    simp only [fixupAt?, Function.comp_apply, Nat.succ_eq_add_one, List.getElem?_cons_succ,
      List.take_succ_cons, codeLength_cons, Nat.add_assoc]
  rw [fixupsAt, List.length_cons, List.range_succ_eq_map, List.filterMap_cons, first,
    List.filterMap_map, others, fixupsAt]
  cases instr.deferred? <;> rfl

theorem fixupsAt_append (start : Nat) (left right : List Instr) :
    fixupsAt start (left ++ right) =
      fixupsAt start left ++ fixupsAt (start + codeLength left) right := by
  induction left generalizing start with
  | nil => rfl
  | cons instr left ih =>
      rw [List.cons_append, fixupsAt_cons, ih, fixupsAt_cons, codeLength_cons, Nat.add_assoc,
        List.append_assoc]

/-- The field of a fixup ends before the next one starts. -/
theorem pairwise_fixupsAt (start : Nat) (instrs : List Instr) :
    (fixupsAt start instrs).Pairwise fun left right =>
      left.offset + left.kind.size ≤ right.offset := by
  rw [fixupsAt, List.pairwise_filterMap]
  refine List.pairwise_lt_range.imp ?_
  intro index later before left leftFound right rightFound
  obtain ⟨instr, target, found, deferred, rfl⟩ := fixupAt?_eq_some leftFound
  obtain ⟨_, _, -, -, rfl⟩ := fixupAt?_eq_some rightFound
  have inside := Instr.fixupKind_size_le deferred
  have ends := codeLength_take_add_le found before
  simp only [Instr.fixup]
  omega

theorem FixupKind.size_pos (kind : FixupKind) : 0 < kind.size := by
  cases kind <;> decide

/-! ## Blank fields -/

/-- The bytes of a stream from an offset on are as many zeros as a field has bytes. -/
def IsBlank (bytes : List UInt8) (offset size : Nat) : Prop :=
  ∃ front back, bytes = front ++ List.replicate size 0 ++ back ∧ front.length = offset

namespace IsBlank

variable {bytes : List UInt8} {offset size : Nat}

theorem append_right (blank : IsBlank bytes offset size) (more : List UInt8) :
    IsBlank (bytes ++ more) offset size := by
  obtain ⟨front, back, rfl, frontLength⟩ := blank
  exact ⟨front, back ++ more, List.append_assoc .., frontLength⟩

theorem append_left (blank : IsBlank bytes offset size) (before : List UInt8) :
    IsBlank (before ++ bytes) (before.length + offset) size := by
  obtain ⟨front, back, rfl, rfl⟩ := blank
  exact ⟨before ++ front, back, by simp only [List.append_assoc], List.length_append⟩

theorem le_length (blank : IsBlank bytes offset size) : offset + size ≤ bytes.length := by
  obtain ⟨front, back, rfl, rfl⟩ := blank
  simp

theorem narrow {narrower : Nat} (blank : IsBlank bytes offset size) (fits : narrower ≤ size) :
    IsBlank bytes offset narrower := by
  obtain ⟨front, back, rfl, frontLength⟩ := blank
  refine ⟨front, List.replicate (size - narrower) 0 ++ back, ?_, frontLength⟩
  rw [← Nat.add_sub_of_le fits, List.replicate_add, Nat.add_sub_cancel_left]
  simp only [List.append_assoc]

end IsBlank

theorem Word.bytes_of_value_eq_zero (order : ByteOrder) (word : Word) (zero : word.value = 0#32) :
    ∃ registers, word.bytes order = [word.opcode, registers, 0, 0] ++ List.replicate 4 0 := by
  cases order with
  | little => exact ⟨word.registerByte, by rw [bytes_eq, zero]; rfl⟩
  | big => exact ⟨swapNibbles word.registerByte, by rw [bytes_eq, zero]; rfl⟩

/-! ## Encoded instructions -/

namespace Instr

/-- The operand of a 64-bit load is resolved twice, with the same result. -/
theorem encodeWords_eq (instr : Instr) :
    instr.encodeWords = (do
      let (word, value) ← instr.encodeWord
      if instr.opcode = .ldImm64 then
        pure ([{ word with value := value.bits.extractLsb' 32 32 },
          { value := value.bits.setWidth 32 }], value.fixups)
      else
        pure ([word], value.fixups)) := by
  rw [encodeWords]
  cases encoded : instr.encodeWord with
  | error reason => rfl
  | ok result =>
      by_cases isLong : instr.opcode = .ldImm64
      · have again : instr.operandValue 1 = .ok result.2 := by
          rw [encodeWord, isLong] at encoded
          obtain ⟨_, -, encoded⟩ := exists_of_bind_eq_ok encoded
          obtain ⟨_, -, encoded⟩ := exists_of_bind_eq_ok encoded
          obtain ⟨value, valueEncoded, returned⟩ := exists_of_bind_eq_ok encoded
          cases returned
          exact valueEncoded
        simp only [bind, Except.bind, again, if_pos isLong]
      · simp only [bind, Except.bind, if_neg isLong]

theorem exists_of_bind_operand {instr : Instr} {position : Nat} {result : Type}
    {next : Operand → Except CodeError result} {value : result}
    (succeeded : (instr.operand position >>= next) = .ok value) :
    ∃ operand, instr.operands[position]? = some operand ∧ next operand = .ok value := by
  obtain ⟨operand, read, succeeded⟩ := exists_of_bind_eq_ok succeeded
  exact ⟨operand, operand_eq_ok read, succeeded⟩

/-- A value that is filled in later is zero for now, and no other value has a fixup. -/
theorem fieldValue_fixups {instr : Instr} {source : ValueSource} {value : EncodedValue}
    (encoded : instr.fieldValue source = .ok value) :
    value.fixups = ((instr.deferredAt? source).map (instr.fixup 0)).toList ∧
      (value.fixups = [] ∨ value.bits = 0#64) := by
  cases source with
  | zero =>
      cases encoded
      exact ⟨rfl, .inl rfl⟩
  | memory position =>
      obtain ⟨bits, -, returned⟩ := exists_of_bind_eq_ok encoded
      cases returned
      exact ⟨rfl, .inl rfl⟩
  | operand position =>
      obtain ⟨operand, found, encoded⟩ := exists_of_bind_operand encoded
      rw [deferredAt?, found, Option.bind_some]
      cases operand with
      | register reg flags =>
          obtain ⟨bits, -, returned⟩ := exists_of_bind_eq_ok encoded
          cases returned
          exact ⟨rfl, .inl rfl⟩
      | immediate value =>
          cases encoded
          exact ⟨rfl, .inl rfl⟩
      | symbol name =>
          cases encoded
          exact ⟨rfl, .inr rfl⟩
      | block target =>
          cases encoded
          exact ⟨rfl, .inr rfl⟩
      | frameIndex index => contradiction

theorem encodeWord_fixups {instr : Instr} {word : Word} {value : EncodedValue}
    (encoded : instr.encodeWord = .ok (word, value)) :
    instr.opcode.isPseudo = false ∧ word.value = value.bits.setWidth 32 ∧
      value.fixups = (instr.deferred?.map (instr.fixup 0)).toList ∧
      (value.fixups = [] ∨ value.bits = 0#64) := by
  unfold encodeWord at encoded
  split at encoded
  next opcode sources opcodeEq sourcesEq =>
    obtain ⟨source, -, encoded⟩ := exists_of_bind_eq_ok encoded
    obtain ⟨destination, -, encoded⟩ := exists_of_bind_eq_ok encoded
    obtain ⟨value, valueEncoded, returned⟩ := exists_of_bind_eq_ok encoded
    cases returned
    obtain ⟨fixups, blank⟩ := fieldValue_fixups valueEncoded
    refine ⟨?_, rfl, ?_, blank⟩
    · rw [Opcode.isPseudo, opcodeEq, Option.isNone_some]
    · rw [fixups, deferred?, sourcesEq, Option.bind_some]
  next => contradiction

/-- An encoded instruction has the length of its opcode and the fixup of its deferred value, whose
field is blank. -/
theorem encode_fixups {order : ByteOrder} {instr : Instr} {encoded : EncodedInstr}
    (ran : instr.encode order = .ok encoded) :
    encoded.bytes.length = instr.opcode.encodedLength ∧
      encoded.fixups = (instr.deferred?.map (instr.fixup 0)).toList ∧
      (encoded.fixups = [] ∨ IsBlank encoded.bytes 4 instr.opcode.fixupKind.size) := by
  obtain ⟨⟨words, fixups⟩, wordsEncoded, returned⟩ := exists_of_bind_eq_ok ran
  cases returned
  rw [encodeWords_eq] at wordsEncoded
  obtain ⟨⟨word, value⟩, wordEncoded, wordsEq⟩ := exists_of_bind_eq_ok wordsEncoded
  obtain ⟨real, wordValue, fixupsEq, blank⟩ := encodeWord_fixups wordEncoded
  simp only at wordsEq
  split at wordsEq
  next isLong =>
    cases wordsEq
    refine ⟨?_, fixupsEq, blank.imp_right ?_⟩
    · rw [isLong]
      simp [Word.length, Opcode.encodedLength]
    · intro zero
      rw [isLong, zero]
      obtain ⟨registers, upper⟩ := Word.bytes_of_value_eq_zero order
        { word with value := (0#64).extractLsb' 32 32 } rfl
      have lower : Word.bytes order { value := (0#64).setWidth 32 } = List.replicate 8 0 := by
        cases order <;> decide
      refine ⟨[word.opcode, registers, 0, 0], List.replicate 4 0, ?_, rfl⟩
      rw [List.flatMap_cons, List.flatMap_cons, List.flatMap_nil, List.append_nil, upper, lower]
      rfl
  next isShort =>
    cases wordsEq
    refine ⟨?_, fixupsEq, blank.imp_right ?_⟩
    · simp [Word.length, Opcode.encodedLength, real]
    · intro zero
      rw [zero] at wordValue
      obtain ⟨registers, bytesEq⟩ := Word.bytes_of_value_eq_zero order word wordValue
      have narrow : instr.opcode.fixupKind.size ≤ 4 := by
        revert isShort
        cases instr.opcode <;> decide
      rw [List.flatMap_cons, List.flatMap_nil, List.append_nil, bytesEq]
      exact IsBlank.narrow ⟨[word.opcode, registers, 0, 0], [], rfl, rfl⟩ narrow

end Instr

/-! ## Streams -/

/-- How the code of instructions is laid out behind the bytes that are already there. -/
structure IsPlaced (before : List UInt8) (instrs : List Instr) (code : Code) : Prop where
  count : code.instructions = instrs.length
  length : code.bytes.length = codeLength instrs
  fixups : code.fixups = fixupsAt before.length instrs
  blank : ∀ fixup ∈ code.fixups, IsBlank (before ++ code.bytes) fixup.offset fixup.kind.size

namespace IsPlaced

variable {before : List UInt8}

theorem nil : IsPlaced before [] {} where
  count := rfl
  length := rfl
  fixups := rfl
  blank := by simp

/-- Code that follows placed code is placed behind it. -/
theorem append {left right : List Instr} {code following : Code}
    (placed : IsPlaced before left code)
    (follows : IsPlaced (before ++ code.bytes) right following) :
    IsPlaced before (left ++ right)
      { bytes := code.bytes ++ following.bytes
        fixups := code.fixups ++ following.fixups
        instructions := code.instructions + following.instructions } where
  count := by rw [placed.count, follows.count, List.length_append]
  length := by rw [List.length_append, placed.length, follows.length, codeLength_append]
  fixups := by
    rw [placed.fixups, follows.fixups, fixupsAt_append, List.length_append, placed.length]
  blank := by
    intro fixup member
    rw [← List.append_assoc]
    rcases List.mem_append.mp member with inFront | inFollowing
    · exact (placed.blank fixup inFront).append_right following.bytes
    · exact follows.blank fixup inFollowing

theorem of_encode {order : ByteOrder} {instr : Instr} {encoded : EncodedInstr}
    (ran : instr.encode order = .ok encoded) :
    IsPlaced before [instr]
      { bytes := encoded.bytes
        fixups := encoded.fixups.map (·.shift before.length)
        instructions := 1 } where
  count := rfl
  length := (Instr.encode_fixups ran).1
  fixups := by
    rw [(Instr.encode_fixups ran).2.1, fixupsAt_cons]
    cases instr.deferred? <;> simp [fixupsAt]
  blank := by
    intro fixup member
    obtain ⟨-, fixupsEq, blank⟩ := Instr.encode_fixups ran
    obtain ⟨inner, innerMember, rfl⟩ := List.mem_map.mp member
    have field := blank.resolve_left (List.ne_nil_of_mem innerMember)
    rw [fixupsEq] at innerMember
    obtain ⟨target, -, rfl⟩ := Option.map_eq_some_iff.mp (Option.mem_toList.mp innerMember)
    rw [Instr.shift_fixup]
    exact field.append_left before

theorem of_encodeInstrs {order : ByteOrder} {instrs : List Instr} {code : Code}
    (ran : encodeInstrs order before.length instrs = .ok code) : IsPlaced before instrs code := by
  induction instrs generalizing before code with
  | nil =>
      cases ran
      exact nil
  | cons instr rest ih =>
      obtain ⟨encoded, instrEncoded, ran⟩ := exists_of_bind_eq_ok ran
      obtain ⟨following, restEncoded, returned⟩ := exists_of_bind_eq_ok ran
      cases returned
      rw [← List.length_append] at restEncoded
      exact (of_encode instrEncoded).append (ih restEncoded)

theorem of_encodeBlocks {order : ByteOrder} {blocks : List Block} {stream : CodeStream}
    (ran : encodeBlocks order before.length blocks = .ok stream) :
    IsPlaced before (blocks.flatMap Block.instrs) stream.toCode := by
  induction blocks generalizing before stream with
  | nil =>
      cases ran
      exact nil
  | cons block rest ih =>
      obtain ⟨code, blockEncoded, ran⟩ := exists_of_bind_eq_ok ran
      obtain ⟨following, restEncoded, returned⟩ := exists_of_bind_eq_ok ran
      cases returned
      rw [← List.length_append] at restEncoded
      exact (of_encodeInstrs blockEncoded).append (ih restEncoded)

end IsPlaced

/-- A block starts behind the instructions of the blocks before it. -/
theorem blockOffsets_eq {order : ByteOrder} {before : List UInt8} {blocks : List Block}
    {stream : CodeStream} (ran : encodeBlocks order before.length blocks = .ok stream) :
    stream.blockOffsets = (List.range blocks.length).map fun id =>
      before.length + codeLength ((blocks.take id).flatMap Block.instrs) := by
  induction blocks generalizing before stream with
  | nil =>
      cases ran
      rfl
  | cons block rest ih =>
      obtain ⟨code, blockEncoded, ran⟩ := exists_of_bind_eq_ok ran
      obtain ⟨following, restEncoded, returned⟩ := exists_of_bind_eq_ok ran
      cases returned
      rw [← List.length_append] at restEncoded
      have length := (IsPlaced.of_encodeInstrs blockEncoded).length
      simp only [ih restEncoded, List.length_cons, List.range_succ_eq_map, List.map_cons,
        List.map_map, List.take_zero, List.flatMap_nil, codeLength_nil, Nat.add_zero,
        Function.comp_def, Nat.succ_eq_add_one, List.take_succ_cons, List.flatMap_cons,
        codeLength_append, List.length_append, length, Nat.add_assoc]

/-- Compilation relaxes the function that frame lowering leaves, and encodes what relaxation
leaves. -/
theorem exists_framed_of_compileFunction {options : Options} {function lowered : Function}
    {compiled : CompiledFunction}
    (ran : (compileFunction options).run function = .ok compiled lowered) :
    ∃ framed, (lowerFrame options).run function = .ok () framed ∧
      relaxBranches.run framed = .ok compiled.relaxation lowered ∧
      encodeBlocks options.byteOrder 0 lowered.blocks = .ok compiled.toCodeStream := by
  obtain ⟨_, framed, framedRan, afterLowering⟩ := Pass.run_bind_eq_ok ran
  obtain ⟨_, relaxed, relaxedRan, afterRelaxation⟩ := Pass.run_bind_eq_ok afterLowering
  obtain ⟨_, _, got, afterGet⟩ := Pass.run_bind_eq_ok afterRelaxation
  cases got
  obtain ⟨stream, _, streamRan, returned⟩ := Pass.run_bind_eq_ok afterGet
  obtain ⟨encoded, rfl⟩ := Pass.run_ofExcept_eq_ok streamRan
  cases returned
  exact ⟨framed, framedRan, relaxedRan, encoded⟩

/-- The code of a compiled function is that of the function which the passes leave. -/
theorem encodeBlocks_of_compileFunction {options : Options} {function lowered : Function}
    {compiled : CompiledFunction}
    (ran : (compileFunction options).run function = .ok compiled lowered) :
    encodeBlocks options.byteOrder 0 lowered.blocks = .ok compiled.toCodeStream := by
  obtain ⟨_, -, -, encoded⟩ := exists_framed_of_compileFunction ran
  exact encoded

/-- The encoder has counted every instruction of the function once. -/
theorem instructions_of_compileFunction {options : Options} {function lowered : Function}
    {compiled : CompiledFunction}
    (ran : (compileFunction options).run function = .ok compiled lowered) :
    compiled.instructions = lowered.instructionCount := by
  have encoded := encodeBlocks_of_compileFunction ran
  exact (@IsPlaced.of_encodeBlocks [] _ _ _ encoded).count

/-- In code of less than 4294967296 bytes, no offset is cut off where it is held in four bytes. -/
theorem toUInt32_offset_of_compileFunction {options : Options} {function lowered : Function}
    {compiled : CompiledFunction}
    (ran : (compileFunction options).run function = .ok compiled lowered)
    (short : compiled.bytes.length < UInt32.size) :
    (∀ fixup ∈ compiled.fixups, fixup.offset.toUInt32.toNat = fixup.offset) ∧
      ∀ offset ∈ compiled.blockOffsets, offset.toUInt32.toNat = offset := by
  have encoded := encodeBlocks_of_compileFunction ran
  have placed := @IsPlaced.of_encodeBlocks [] _ _ _ encoded
  have starts := @blockOffsets_eq _ [] _ _ encoded
  constructor
  · intro fixup member
    have inside : fixup.offset + fixup.kind.size ≤ compiled.bytes.length :=
      (placed.blank fixup member).le_length
    exact UInt32.toNat_ofNat_of_lt' (by omega)
  · intro offset member
    rw [starts, List.mem_map] at member
    obtain ⟨id, -, rfl⟩ := member
    have length := placed.length
    rw [← List.take_append_drop id lowered.blocks, List.flatMap_append, codeLength_append] at length
    exact UInt32.toNat_ofNat_of_lt' (by rw [List.length_nil]; omega)

/-- The code of a compiled function is as long as its instructions are, every block starts behind
the instructions of the blocks before it, and the fixups are those of the instructions whose value
field refers to a symbol or a block. The fields of the fixups follow one another in the code and
are blank. -/
theorem compileFunction_placement {options : Options} {function lowered : Function}
    {compiled : CompiledFunction}
    (ran : (compileFunction options).run function = .ok compiled lowered) :
    compiled.bytes.length = codeLength (lowered.blocks.flatMap Block.instrs) ∧
      compiled.blockStarts = lowered.blockIds.map (fun id =>
        (id, codeLength ((lowered.blocks.take id).flatMap Block.instrs))) ∧
      compiled.fixups = fixupsAt 0 (lowered.blocks.flatMap Block.instrs) ∧
      (compiled.fixups.map Fixup.offset).Pairwise (· < ·) ∧
      (compiled.fixups.Pairwise fun left right => left.offset + left.kind.size ≤ right.offset) ∧
      ∀ fixup ∈ compiled.fixups, fixup.offset + fixup.kind.size ≤ compiled.bytes.length ∧
        IsBlank compiled.bytes fixup.offset fixup.kind.size := by
  have encoded := encodeBlocks_of_compileFunction ran
  have placed := @IsPlaced.of_encodeBlocks [] _ _ _ encoded
  have starts := @blockOffsets_eq _ [] _ _ encoded
  have apart : compiled.fixups.Pairwise fun left right =>
      left.offset + left.kind.size ≤ right.offset := by
    rw [placed.fixups]
    exact pairwise_fixupsAt _ _
  refine ⟨placed.length, ?_, placed.fixups, ?_, apart, ?_⟩
  · rw [CompiledFunction.blockStarts, starts, Function.blockIds]
    apply List.ext_getElem <;> simp
  · refine List.pairwise_map.mpr (apart.imp ?_)
    intro left right disjoint
    have := left.kind.size_pos
    omega
  · intro fixup member
    have blank := placed.blank fixup member
    exact ⟨blank.le_length, blank⟩

/-- A function that refers to two symbols and to a block. -/
def referring : Function where
  name := "referring"
  blocks := [
    { name := "start"
      instrs := [
        { opcode := .ldImm64, operands := [.define .sr, .symbol "table"] },
        { opcode := .jcc, operands := [.block 1, .immediate 5] }] },
    { name := "done"
      instrs := [
        { opcode := .jal, operands := [.symbol "callee"] },
        { opcode := .ret }] }]

def referringLowered : Function :=
  { referring with frame := { framePointer? := some false } }

def referringCompiled : CompiledFunction where
  name := "referring"
  relaxation := {}
  bytes := [
    0x18, 0x02, 0, 0, 0, 0, 0, 0, 0, 0, 0, 0, 0, 0, 0, 0,
    0x40, 0x05, 0, 0, 0, 0, 0, 0,
    0x48, 0, 0, 0, 0, 0, 0, 0,
    0x50, 0, 0, 0, 0, 0, 0, 0]
  fixups := [
    { offset := 4, target := .symbol "table", kind := .secRel8 },
    { offset := 20, target := .block 1, kind := .pcRel2 },
    { offset := 28, target := .symbol "callee", kind := .secRel4 }]
  instructions := 4
  blockOffsets := [0, 24]

theorem compileFunction_placement_referring :
    (compileFunction {}).run referring = .ok referringCompiled referringLowered ∧
      referringCompiled.blockStarts = [(0, 0), (1, 24)] ∧
      referringCompiled.fixups = fixupsAt 0 (referringLowered.blocks.flatMap Block.instrs) ∧
      IsBlank referringCompiled.bytes 4 8 := by
  have ran : (compileFunction {}).run referring = .ok referringCompiled referringLowered := by
    decide +kernel
  obtain ⟨-, starts, fixups, -, -, blank⟩ := compileFunction_placement ran
  exact ⟨ran, starts, fixups, (blank _ (List.mem_cons_self ..)).2⟩

end MachineCode
