import MachineCode.Proofs.Encoding.Placement

/-!
# Decoding a code stream

The code of a function can be taken apart again from its bytes alone. A decoder reads the opcode
byte, which tells how long the instruction is, and undoes the byte order and the exchange of the
register nibbles. `Instr.record` says what it finds: it is computed from the operands of the
instruction by integer arithmetic, without words, shifts or masks.
-/

namespace MachineCode

/-! ## The decoder -/

/-- The opcode whose code starts with the given byte. -/
def Opcode.ofEncoding? (byte : UInt8) : Option Opcode :=
  all.find? fun opcode => opcode.encoding? == some byte

/-- No two opcodes share their first byte. -/
theorem Opcode.ofEncoding?_of_encoding? {opcode : Opcode} {byte : UInt8}
    (encoded : opcode.encoding? = some byte) : ofEncoding? byte = some opcode := by
  have every : ∀ candidate ∈ all, ∀ first ∈ candidate.encoding?,
      ofEncoding? first = some candidate := by decide +kernel
  exact every opcode opcode.mem_all byte encoded

/-- Every opcode but the call sequence pseudos has an encoding. -/
theorem Instr.exists_encoding {instr : Instr} (real : instr.isCallPseudo = false) :
    ∃ code sources, instr.opcode.encoding? = some code ∧
      instr.opcode.wordSources? = some sources := by
  rw [Instr.isCallPseudo] at real
  cases opcodeEq : instr.opcode with
  | adjCallStackDown | adjCallStackUp =>
      rw [opcodeEq] at real
      contradiction
  | _ => exact ⟨_, _, rfl, rfl⟩

/-- What code tells about an instruction. -/
structure CodeRecord where
  opcode : Opcode
  /-- The upper nibble of the register byte. -/
  high : BitVec 4
  /-- The lower nibble of the register byte. -/
  low : BitVec 4
  /-- The number in the value field: 64 bits for a load of a 64-bit immediate, 32 otherwise. -/
  value : Nat
  deriving DecidableEq, Repr

def CodeRecord.length (record : CodeRecord) : Nat :=
  if record.opcode = .ldImm64 then 16 else 8

/-- Take a word off a stream. -/
def Word.ofBytes? (order : ByteOrder) : List UInt8 → Option (Word × List UInt8)
  | opcode :: registers :: _ :: _ :: first :: second :: third :: fourth :: rest =>
      let registers := match order with
        | .little => registers.toBitVec
        | .big => (swapNibbles registers).toBitVec
      let value := match order with
        | .little => fourth.toBitVec ++ third.toBitVec ++ second.toBitVec ++ first.toBitVec
        | .big => first.toBitVec ++ second.toBitVec ++ third.toBitVec ++ fourth.toBitVec
      some ({
        opcode
        source := registers.extractLsb' 4 4
        destination := registers.extractLsb' 0 4
        value }, rest)
  | _ => none

/-- Take an instruction off a stream: one word, or two if the opcode asks for them. -/
def decodeInstr? (order : ByteOrder) (bytes : List UInt8) :
    Option (CodeRecord × List UInt8) := do
  let (word, rest) ← Word.ofBytes? order bytes
  let opcode ← Opcode.ofEncoding? word.opcode
  if opcode = .ldImm64 then
    let (second, rest) ← Word.ofBytes? order rest
    let value := word.value.toNat * 4294967296 + second.value.toNat
    some ({ opcode, high := word.source, low := word.destination, value }, rest)
  else
    some ({ opcode, high := word.source, low := word.destination, value := word.value.toNat }, rest)

theorem Word.length_of_ofBytes? {order : ByteOrder} {bytes rest : List UInt8} {word : Word}
    (taken : Word.ofBytes? order bytes = some (word, rest)) :
    bytes.length = 8 + rest.length := by
  unfold Word.ofBytes? at taken
  split at taken
  · cases taken
    simp only [List.length_cons]
    omega
  · contradiction

/-- The decoder takes as many bytes off the stream as the opcode asks for. -/
theorem length_of_decodeInstr? {order : ByteOrder} {bytes rest : List UInt8} {record : CodeRecord}
    (taken : decodeInstr? order bytes = some (record, rest)) :
    bytes.length = record.length + rest.length := by
  unfold decodeInstr? at taken
  simp only [Option.bind_eq_bind, Option.bind_eq_some_iff] at taken
  obtain ⟨first, firstTaken, opcode, -, taken⟩ := taken
  have firstLength := Word.length_of_ofBytes? firstTaken
  split at taken
  next isLong =>
    simp only [Option.bind_eq_some_iff] at taken
    obtain ⟨second, secondTaken, recordEq⟩ := taken
    have secondLength := Word.length_of_ofBytes? secondTaken
    cases recordEq
    rw [CodeRecord.length, if_pos isLong]
    omega
  next isShort =>
    cases taken
    rw [CodeRecord.length, if_neg isShort]
    exact firstLength

theorem CodeRecord.length_pos (record : CodeRecord) : 0 < record.length := by
  unfold CodeRecord.length
  split <;> decide

/-- Take a whole stream apart; nothing may be left over. -/
def decode? (order : ByteOrder) (bytes : List UInt8) : Option (List CodeRecord) :=
  if bytes.isEmpty then
    some []
  else
    match taken : decodeInstr? order bytes with
    | none => none
    | some (record, rest) =>
        have := length_of_decodeInstr? taken
        have := record.length_pos
        (decode? order rest).map (record :: ·)
termination_by bytes.length

@[simp] theorem decode?_nil (order : ByteOrder) : decode? order [] = some [] := by
  rw [decode?]
  rfl

theorem decode?_of_decodeInstr? {order : ByteOrder} {bytes rest : List UInt8} {record : CodeRecord}
    (taken : decodeInstr? order bytes = some (record, rest)) :
    decode? order bytes = (decode? order rest).map (record :: ·) := by
  have nonempty : bytes.isEmpty = false := by
    cases bytes with
    | nil => contradiction
    | cons byte others => rfl
  rw [decode?, nonempty, if_neg Bool.false_ne_true]
  split
  next failed => cases taken.symm.trans failed
  next found => cases taken.symm.trans found; rfl

/-! ## What the decoder finds -/

namespace Instr

/-- The register nibble that the operand at a position asks for: the number of a register, or a
condition code. -/
def nibbleAt (instr : Instr) (position? : Option Nat) : BitVec 4 :=
  match position?.bind (instr.operands[·]?) with
  | some (.register (.physical register) _) => register.encoding
  | some (.immediate value) => BitVec.ofInt 4 value.toInt
  | _ => 0#4

/-- The number that the operands ask for in the value field. Symbols and blocks are zero until
they are filled in. -/
def valueNumber (instr : Instr) : ValueSource → Int
  | .zero => 0
  | .operand position =>
      match instr.operands[position]? with
      | some (.register (.physical register) _) => register.number.val
      | some (.immediate value) => value.toInt
      | _ => 0
  | .memory position =>
      match instr.operands[position]?, instr.operands[position + 1]? with
      | some (.register (.physical base) _), some (.immediate displacement) =>
          base.number.val * 65536 + displacement.toInt % 65536
      | _, _ => 0

/-- What the code of an instruction tells. -/
def record (instr : Instr) : CodeRecord :=
  let sources := instr.opcode.wordSources?.getD {}
  let limit := if instr.opcode = .ldImm64 then 18446744073709551616 else 4294967296
  { opcode := instr.opcode
    high := instr.nibbleAt sources.source?
    low := instr.nibbleAt sources.destination?
    value := (instr.valueNumber sources.value % limit).toNat }

end Instr

/-! ## Words -/

theorem swapNibbles_swapNibbles (byte : UInt8) : swapNibbles (swapNibbles byte) = byte := by
  have every : ∀ bits : BitVec 8, swapNibbles (swapNibbles ⟨bits⟩) = ⟨bits⟩ := by decide +kernel
  exact every byte.toBitVec

/-- A value is its four bytes side by side. -/
theorem append_byteAt (value : BitVec 32) :
    (byteAt value 24).toBitVec ++ (byteAt value 16).toBitVec ++ (byteAt value 8).toBitVec ++
      (byteAt value 0).toBitVec = value := by
  simp only [byteAt]
  rw [BitVec.extractLsb'_append_extractLsb'_eq_extractLsb' (by decide),
    BitVec.extractLsb'_append_extractLsb'_eq_extractLsb' (by decide),
    BitVec.extractLsb'_append_extractLsb'_eq_extractLsb' (by decide)]
  exact BitVec.extractLsb'_eq_self

theorem Word.ofBytes?_bytes (order : ByteOrder) (word : Word) (rest : List UInt8) :
    Word.ofBytes? order (word.bytes order ++ rest) = some (word, rest) := by
  have high : word.registerByte.toBitVec.extractLsb' 4 4 = word.source :=
    BitVec.extractLsb'_append_eq_left
  have low : word.registerByte.toBitVec.extractLsb' 0 4 = word.destination :=
    BitVec.extractLsb'_append_eq_right
  have value := append_byteAt word.value
  cases order with
  | little =>
      simp only [Word.bytes_eq, Word.valueBytes, List.cons_append, List.nil_append, Word.ofBytes?,
        high, low, value]
  | big =>
      simp only [Word.bytes_eq, Word.valueBytes, List.cons_append, List.nil_append, Word.ofBytes?,
        swapNibbles_swapNibbles, high, low, value]


/-- The upper and the lower half of a value make up the value. -/
theorem toNat_halves (bits : BitVec 64) :
    (bits.extractLsb' 32 32).toNat * 4294967296 + (bits.setWidth 32).toNat = bits.toNat := by
  have bound := bits.isLt
  rw [BitVec.extractLsb'_toNat, BitVec.toNat_setWidth, Nat.shiftRight_eq_div_pow]
  omega

/-! ## Instructions -/

/-- An integer and its bits agree modulo the number of integers. -/
theorem toInt_emod (value : Int64) :
    value.toInt % 18446744073709551616 = value.toBitVec.toNat := by
  have wrapped : value.toInt = (value.toBitVec.toNat : Int).bmod 18446744073709551616 :=
    BitVec.toInt_eq_toNat_bmod value.toBitVec
  have reduced := @Int.bmod_emod value.toBitVec.toNat 18446744073709551616
  have bound := value.toBitVec.isLt
  rw [← wrapped] at reduced
  omega

namespace Instr

theorem registerEncoding_eq_ok {instr : Instr} {reg : Reg} {bits : BitVec 4}
    (encoded : instr.registerEncoding reg = .ok bits) :
    ∃ register, reg = .physical register ∧ bits = register.encoding := by
  cases reg with
  | virtual number => contradiction
  | physical register =>
      cases encoded
      exact ⟨register, rfl, rfl⟩

theorem nibble_eq_ok {instr : Instr} {position? : Option Nat} {bits : BitVec 4}
    (encoded : instr.nibble position? = .ok bits) : bits = instr.nibbleAt position? := by
  cases position? with
  | none =>
      cases encoded
      rfl
  | some position =>
      obtain ⟨operand, found, encoded⟩ := exists_of_bind_operand encoded
      rw [nibbleAt, Option.bind_some, found]
      cases operand with
      | register reg flags =>
          obtain ⟨register, rfl, rfl⟩ := registerEncoding_eq_ok encoded
          rfl
      | immediate value =>
          cases encoded
          exact (BitVec.signExtend_eq_setWidth_of_le _ (by decide)).symm
      | _ => contradiction

theorem operandValue_eq_ok {instr : Instr} {position : Nat} {value : EncodedValue}
    (encoded : instr.operandValue position = .ok value) :
    instr.valueNumber (.operand position) % 18446744073709551616 = value.bits.toNat := by
  obtain ⟨operand, found, encoded⟩ := exists_of_bind_operand encoded
  rw [valueNumber, found]
  cases operand with
  | register reg flags =>
      obtain ⟨bits, read, returned⟩ := exists_of_bind_eq_ok encoded
      cases returned
      obtain ⟨register, rfl, rfl⟩ := registerEncoding_eq_ok read
      have bound := register.number.isLt
      have encodingEq : register.encoding.toNat = register.number.val := rfl
      simp only [BitVec.toNat_setWidth, encodingEq]
      omega
  | immediate immediate =>
      cases encoded
      exact toInt_emod immediate
  | symbol name =>
      cases encoded
      rfl
  | block target =>
      cases encoded
      rfl
  | frameIndex index => contradiction

/-- The base and the displacement do not overlap. -/
theorem toNat_memoryBits (base : BitVec 4) (displacement : BitVec 64) :
    (0#12 ++ base ++ displacement.setWidth 16).toNat =
      base.toNat * 65536 + displacement.toNat % 65536 := by
  rw [BitVec.toNat_append, BitVec.toNat_append, BitVec.toNat_setWidth,
    ← Nat.shiftLeft_add_eq_or_of_lt (Nat.mod_lt _ (by decide))]
  simp [Nat.shiftLeft_eq]

theorem memoryValue_eq_ok {instr : Instr} {position : Nat} {bits : BitVec 32}
    (encoded : instr.memoryValue position = .ok bits) :
    instr.valueNumber (.memory position) = bits.toNat := by
  obtain ⟨reg, baseRead, encoded⟩ := exists_of_bind_eq_ok encoded
  obtain ⟨base, baseEncoded, encoded⟩ := exists_of_bind_eq_ok encoded
  obtain ⟨displacement, displacementRead, returned⟩ := exists_of_bind_eq_ok encoded
  cases returned
  obtain ⟨flags, baseFound⟩ := registerOperand_eq_ok baseRead
  obtain ⟨register, rfl, rfl⟩ := registerEncoding_eq_ok baseEncoded
  have encodingEq : register.encoding.toNat = register.number.val := rfl
  have wrapped := toInt_emod displacement
  rw [valueNumber, baseFound, immediateOperand_eq_ok displacementRead, toNat_memoryBits, encodingEq]
  simp only
  omega

theorem fieldValue_eq_ok {instr : Instr} {source : ValueSource} {value : EncodedValue}
    (encoded : instr.fieldValue source = .ok value) :
    instr.valueNumber source % 18446744073709551616 = value.bits.toNat := by
  cases source with
  | zero =>
      cases encoded
      rfl
  | operand position => exact operandValue_eq_ok encoded
  | memory position =>
      obtain ⟨bits, memoryEncoded, returned⟩ := exists_of_bind_eq_ok encoded
      cases returned
      have bound := bits.isLt
      rw [memoryValue_eq_ok memoryEncoded, BitVec.toNat_setWidth]
      omega

/-- The fields of an instruction's word are those that its record names. -/
theorem encodeWord_eq_ok {instr : Instr} {word : Word} {value : EncodedValue}
    (encoded : instr.encodeWord = .ok (word, value)) :
    Opcode.ofEncoding? word.opcode = some instr.opcode ∧
      word.source = instr.record.high ∧ word.destination = instr.record.low ∧
      word.value = value.bits.setWidth 32 ∧
      instr.record.value =
        if instr.opcode = .ldImm64 then value.bits.toNat else word.value.toNat := by
  unfold encodeWord at encoded
  split at encoded
  next opcode sources opcodeEq sourcesEq =>
    obtain ⟨source, sourceEncoded, encoded⟩ := exists_of_bind_eq_ok encoded
    obtain ⟨destination, destinationEncoded, encoded⟩ := exists_of_bind_eq_ok encoded
    obtain ⟨value, valueEncoded, returned⟩ := exists_of_bind_eq_ok encoded
    cases returned
    have number := fieldValue_eq_ok valueEncoded
    have bound := value.bits.isLt
    refine ⟨Opcode.ofEncoding?_of_encoding? opcodeEq, ?_, ?_, rfl, ?_⟩
    · rw [nibble_eq_ok sourceEncoded, record, sourcesEq, Option.getD_some]
    · rw [nibble_eq_ok destinationEncoded, record, sourcesEq, Option.getD_some]
    · simp only [record, sourcesEq, Option.getD_some, BitVec.toNat_setWidth]
      split <;> omega
  next => contradiction

/-- The decoder takes an encoded instruction off the front of a stream. -/
theorem decodeInstr?_encode {order : ByteOrder} {instr : Instr} {encoded : EncodedInstr}
    (ran : instr.encode order = .ok encoded) (rest : List UInt8) :
    decodeInstr? order (encoded.bytes ++ rest) = some (instr.record, rest) := by
  obtain ⟨⟨words, fixups⟩, wordsEncoded, returned⟩ := exists_of_bind_eq_ok ran
  cases returned
  rw [encodeWords_eq] at wordsEncoded
  obtain ⟨⟨word, value⟩, wordEncoded, wordsEq⟩ := exists_of_bind_eq_ok wordsEncoded
  obtain ⟨opcodeEq, sourceEq, destinationEq, wordValue, valueEq⟩ := encodeWord_eq_ok wordEncoded
  have recordEq (number : Nat) (numberEq : instr.record.value = number) :
      ({ opcode := instr.opcode, high := word.source, low := word.destination, value := number } :
        CodeRecord) = instr.record := by
    rw [sourceEq, destinationEq, ← numberEq]
    rfl
  simp only at wordsEq
  split at wordsEq
  next isLong =>
    cases wordsEq
    rw [if_pos isLong, ← toNat_halves] at valueEq
    simp only [List.flatMap_cons, List.flatMap_nil, List.append_nil, List.append_assoc,
      decodeInstr?, Option.bind_eq_bind, Word.ofBytes?_bytes, Option.bind_some, opcodeEq,
      if_pos isLong, recordEq _ valueEq]
  next isShort =>
    cases wordsEq
    rw [if_neg isShort] at valueEq
    simp only [List.flatMap_cons, List.flatMap_nil, List.append_nil, decodeInstr?,
      Option.bind_eq_bind, Word.ofBytes?_bytes, Option.bind_some, opcodeEq, if_neg isShort,
      recordEq _ valueEq]

end Instr

/-! ## Streams -/

theorem decode?_encodeInstrs {order : ByteOrder} {start : Nat} {instrs : List Instr} {code : Code}
    (ran : encodeInstrs order start instrs = .ok code) (rest : List UInt8) :
    decode? order (code.bytes ++ rest) =
      (decode? order rest).map (instrs.map Instr.record ++ ·) := by
  induction instrs generalizing start code with
  | nil =>
      cases ran
      simp
  | cons instr others ih =>
      obtain ⟨encoded, instrEncoded, ran⟩ := exists_of_bind_eq_ok ran
      obtain ⟨following, othersEncoded, returned⟩ := exists_of_bind_eq_ok ran
      cases returned
      rw [List.append_assoc, decode?_of_decodeInstr? (Instr.decodeInstr?_encode instrEncoded _),
        ih othersEncoded, Option.map_map]
      rfl

theorem decode?_encodeBlocks {order : ByteOrder} {start : Nat} {blocks : List Block}
    {stream : CodeStream} (ran : encodeBlocks order start blocks = .ok stream) :
    decode? order stream.bytes = some ((blocks.flatMap Block.instrs).map Instr.record) := by
  induction blocks generalizing start stream with
  | nil =>
      cases ran
      exact decode?_nil order
  | cons block others ih =>
      obtain ⟨code, blockEncoded, ran⟩ := exists_of_bind_eq_ok ran
      obtain ⟨following, othersEncoded, returned⟩ := exists_of_bind_eq_ok ran
      cases returned
      simp only [decode?_encodeInstrs blockEncoded, ih othersEncoded, Option.map_some,
        List.flatMap_cons, List.map_append]

/-- What is left of a stream behind the code of some blocks is the code of the others. -/
theorem decode?_drop_encodeBlocks {order : ByteOrder} {before : List UInt8} {blocks : List Block}
    {stream : CodeStream} (ran : encodeBlocks order before.length blocks = .ok stream)
    (id : BlockId) :
    decode? order (stream.bytes.drop (codeLength ((blocks.take id).flatMap Block.instrs))) =
      some (((blocks.drop id).flatMap Block.instrs).map Instr.record) := by
  induction blocks generalizing before stream id with
  | nil =>
      cases ran
      simp
  | cons block others ih =>
      cases id with
      | zero => exact decode?_encodeBlocks ran
      | succ id =>
          obtain ⟨code, blockEncoded, ran⟩ := exists_of_bind_eq_ok ran
          obtain ⟨following, othersEncoded, returned⟩ := exists_of_bind_eq_ok ran
          cases returned
          have length := (IsPlaced.of_encodeInstrs blockEncoded).length
          rw [← List.length_append] at othersEncoded
          rw [List.take_succ_cons, List.flatMap_cons, codeLength_append, ← length,
            List.drop_length_add_append, ih othersEncoded, List.drop_succ_cons]

/-- The code of a compiled function can be taken apart into exactly one record for each of its
instructions, which account for all of its bytes, and every block starts where the record of its
first instruction does. -/
theorem compileFunction_decode {options : Options} {function lowered : Function}
    {compiled : CompiledFunction}
    (ran : (compileFunction options).run function = .ok compiled lowered) :
    decode? options.byteOrder compiled.bytes =
        some ((lowered.blocks.flatMap Block.instrs).map Instr.record) ∧
      compiled.bytes.length = codeLength (lowered.blocks.flatMap Block.instrs) ∧
      compiled.blockOffsets.length = lowered.blocks.length ∧
      ∀ id offset, compiled.blockOffsets[id]? = some offset →
        offset = codeLength ((lowered.blocks.take id).flatMap Block.instrs) ∧
          decode? options.byteOrder (compiled.bytes.drop offset) =
            some (((lowered.blocks.drop id).flatMap Block.instrs).map Instr.record) := by
  have encoded := encodeBlocks_of_compileFunction ran
  have placed := @IsPlaced.of_encodeBlocks [] _ _ _ encoded
  have starts := @blockOffsets_eq _ [] _ _ encoded
  refine ⟨decode?_encodeBlocks encoded, placed.length, by rw [starts]; simp, ?_⟩
  intro id offset found
  rw [starts, List.getElem?_map] at found
  obtain ⟨_, isId, rfl⟩ := Option.map_eq_some_iff.mp found
  obtain ⟨_, rfl⟩ := List.getElem?_eq_some_iff.mp isId
  rw [List.getElem_range, List.length_nil, Nat.zero_add]
  exact ⟨rfl, @decode?_drop_encodeBlocks _ [] _ _ encoded id⟩

/-- A function that stores to a negative displacement and loads a negative 64-bit immediate. -/
def storing : Function where
  name := "storing"
  blocks := [
    { name := "start"
      instrs := [
        { opcode := .ldImm64, operands := [.define .sr, .immediate (-2)] },
        { opcode := .mov16mr, operands := [.use .fp, .immediate (-6), .use .cg] }] },
    { name := "done"
      instrs := [
        { opcode := .jcc, operands := [.block 0, .immediate 5] },
        { opcode := .jal, operands := [.symbol "callee"] },
        { opcode := .ret }] }]

def storingLowered : Function :=
  { storing with frame := { framePointer? := some false } }

def storingCompiled : CompiledFunction where
  name := "storing"
  relaxation := {}
  bytes := [
    0x18, 0x20, 0, 0, 0xff, 0xff, 0xff, 0xff, 0, 0, 0, 0, 0xff, 0xff, 0xff, 0xfe,
    0x23, 0x03, 0, 0, 0, 0x04, 0xff, 0xfa,
    0x40, 0x50, 0, 0, 0, 0, 0, 0,
    0x48, 0, 0, 0, 0, 0, 0, 0,
    0x50, 0, 0, 0, 0, 0, 0, 0]
  fixups := [
    { offset := 28, target := .block 0, kind := .pcRel2 },
    { offset := 36, target := .symbol "callee", kind := .secRel4 }]
  instructions := 5
  blockOffsets := [0, 24]

theorem compileFunction_decode_storing :
    (compileFunction { byteOrder := .big }).run storing = .ok storingCompiled storingLowered ∧
      decode? .big storingCompiled.bytes = some [
        { opcode := .ldImm64, high := 0#4, low := 2#4, value := 18446744073709551614 },
        { opcode := .mov16mr, high := 3#4, low := 0#4, value := 327674 },
        { opcode := .jcc, high := 0#4, low := 5#4, value := 0 },
        { opcode := .jal, high := 0#4, low := 0#4, value := 0 },
        { opcode := .ret, high := 0#4, low := 0#4, value := 0 }] ∧
      decode? .big (storingCompiled.bytes.drop 24) = some [
        { opcode := .jcc, high := 0#4, low := 5#4, value := 0 },
        { opcode := .jal, high := 0#4, low := 0#4, value := 0 },
        { opcode := .ret, high := 0#4, low := 0#4, value := 0 }] := by
  have ran : (compileFunction { byteOrder := .big }).run storing =
      .ok storingCompiled storingLowered := by
    decide +kernel
  obtain ⟨decoded, -, -, offsets⟩ := compileFunction_decode ran
  exact ⟨ran, decoded, (offsets 1 24 rfl).2⟩

end MachineCode
