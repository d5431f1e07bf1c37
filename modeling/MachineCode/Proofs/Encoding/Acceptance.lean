import MachineCode.Proofs.Encoding.Decoding

/-!
# What the encoder accepts

An instruction can be encoded exactly if its opcode is no call sequence pseudo and the operands that
fill its word have the shapes that the fields ask for (`Instr.isEncodable`). Other operands are not
looked at. The code then has the length of the opcode, and it has a fixup exactly if its value is
that of a symbol or a block (`encode_acceptance`).
-/

namespace MachineCode

/-! ## Checks and their values -/

section

variable {error first second : Type}

theorem exists_eq_ok_iff_isOk {checked : Except error first} :
    (∃ value, checked = .ok value) ↔ checked.isOk = true := by
  cases checked with
  | error reason => exact ⟨nofun, nofun⟩
  | ok value => exact ⟨fun _ => rfl, fun _ => ⟨value, rfl⟩⟩

/-- A check that is followed by another one, whose answer does not depend on the value. -/
theorem isOk_bind {checked : Except error first} {next : first → Except error second}
    {accepts : Bool} (there : ∀ value, (next value).isOk = accepts) :
    (checked >>= next).isOk = (checked.isOk && accepts) := by
  cases checked with
  | error reason => rfl
  | ok value => exact there value

theorem isOk_bind_of_isOk {checked : Except error first} {next : first → Except error second}
    (there : ∀ value, (next value).isOk = true) : (checked >>= next).isOk = checked.isOk :=
  (isOk_bind there).trans (Bool.and_true _)

/-- Checks in a row have the same value if they have the same values one by one. -/
theorem toOption_bind_congr {checked other : Except error first}
    {next otherNext : first → Except error second}
    (here : checked.toOption = other.toOption)
    (there : ∀ value, (next value).toOption = (otherNext value).toOption) :
    (checked >>= next).toOption = (other >>= otherNext).toOption := by
  cases checked with
  | error reason =>
      cases other with
      | error _ => rfl
      | ok value => contradiction
  | ok value =>
      cases other with
      | error _ => contradiction
      | ok _ =>
          cases here
          exact there value

end

/-! ## Shapes of operands -/

namespace Operand

def isPhysical : Operand → Bool
  | .register (.physical _) _ => true
  | _ => false

def isImmediate : Operand → Bool
  | .immediate _ => true
  | _ => false

/-- Whether the operand fits into a register nibble: as a register or as a condition code. -/
def fitsNibble (operand : Operand) : Bool :=
  operand.isPhysical || operand.isImmediate

/-- Whether the operand fits into a value field, now or once its target is known. -/
def fitsValue (operand : Operand) : Bool :=
  operand.isPhysical || operand.isImmediate || operand.fixupTarget?.isSome

end Operand

namespace Instr

/-- Whether there is an operand of the given shape at a position. -/
def has (instr : Instr) (shape : Operand → Bool) (position : Nat) : Bool :=
  instr.operands[position]?.any shape

/-- Whether a value can be taken from its source. A memory operand is a base register that is
followed by a displacement. -/
def hasValue (instr : Instr) : ValueSource → Bool
  | .zero => true
  | .operand position => instr.has Operand.fitsValue position
  | .memory position =>
      instr.has Operand.isPhysical position && instr.has Operand.isImmediate (position + 1)

/-- Whether an instruction can be encoded: it is no call sequence pseudo, and there are operands
that fit into the fields of its word. -/
def isEncodable (instr : Instr) : Bool :=
  !instr.isCallPseudo && instr.opcode.wordSources?.all fun sources =>
    sources.source?.all (instr.has Operand.fitsNibble) &&
      (sources.destination?.all (instr.has Operand.fitsNibble) && instr.hasValue sources.value)

/-! ## Acceptance -/

/-- A check that starts with an operand accepts the operands that its rest accepts. -/
theorem isOk_bind_operand {result : Type} {instr : Instr} {position : Nat}
    {next : Operand → Except CodeError result} {shape : Operand → Bool}
    (accepts : ∀ operand, (next operand).isOk = shape operand) :
    (instr.operand position >>= next).isOk = instr.has shape position := by
  rw [Instr.operand, has]
  cases instr.operands[position]? with
  | none => rfl
  | some operand => exact accepts operand

theorem isOk_nibble (instr : Instr) (position? : Option Nat) :
    (instr.nibble position?).isOk = position?.all (instr.has Operand.fitsNibble) := by
  cases position? with
  | none => rfl
  | some position =>
      refine isOk_bind_operand fun operand => ?_
      cases operand with
      | register reg flags => cases reg <;> rfl
      | _ => rfl

theorem isOk_operandValue (instr : Instr) (position : Nat) :
    (instr.operandValue position).isOk = instr.has Operand.fitsValue position := by
  refine isOk_bind_operand fun operand => ?_
  cases operand with
  | register reg flags => cases reg <;> rfl
  | _ => rfl

theorem isOk_baseEncoding (instr : Instr) (position : Nat) :
    (instr.registerOperand position >>= instr.registerEncoding).isOk =
      instr.has Operand.isPhysical position := by
  rw [registerOperand, bind_assoc]
  refine isOk_bind_operand fun operand => ?_
  cases operand with
  | register reg flags => cases reg <;> rfl
  | _ => rfl

theorem isOk_immediateOperand (instr : Instr) (position : Nat) :
    (instr.immediateOperand position).isOk = instr.has Operand.isImmediate position := by
  refine isOk_bind_operand fun operand => ?_
  cases operand <;> rfl

theorem isOk_memoryValue (instr : Instr) (position : Nat) :
    (instr.memoryValue position).isOk = instr.hasValue (.memory position) := by
  rw [memoryValue, ← bind_assoc, hasValue, ← isOk_baseEncoding, ← isOk_immediateOperand]
  exact isOk_bind fun base => isOk_bind_of_isOk fun displacement => rfl

theorem isOk_fieldValue (instr : Instr) (source : ValueSource) :
    (instr.fieldValue source).isOk = instr.hasValue source := by
  cases source with
  | zero => rfl
  | operand position => exact isOk_operandValue instr position
  | memory position =>
      exact (isOk_bind_of_isOk fun _ => rfl).trans (isOk_memoryValue instr position)

theorem isOk_encodeWord (instr : Instr) : instr.encodeWord.isOk = instr.isEncodable := by
  rw [encodeWord, isEncodable]
  cases pseudo : instr.isCallPseudo with
  | true =>
      rw [isCallPseudo, Bool.or_eq_true, beq_iff_eq, beq_iff_eq] at pseudo
      rcases pseudo with isDown | isUp
      · rw [isDown]
        rfl
      · rw [isUp]
        rfl
  | false =>
      obtain ⟨code, sources, codeEq, sourcesEq⟩ := exists_encoding pseudo
      rw [codeEq, sourcesEq, Option.all_some, Bool.not_false, Bool.true_and, ← isOk_nibble,
        ← isOk_nibble, ← isOk_fieldValue]
      exact isOk_bind fun source => isOk_bind fun destination => isOk_bind_of_isOk fun value => rfl

theorem isOk_encode (order : ByteOrder) (instr : Instr) :
    (instr.encode order).isOk = instr.isEncodable := by
  rw [← isOk_encodeWord, encode, encodeWords_eq]
  refine (isOk_bind_of_isOk fun _ => rfl).trans (isOk_bind_of_isOk fun encoded => ?_)
  dsimp only
  split <;> rfl

end Instr

/-! ## Operands that are not looked at -/

/-- The operand positions from which a value is taken. -/
def ValueSource.positions : ValueSource → List Nat
  | .zero => []
  | .operand position => [position]
  | .memory position => [position, position + 1]

/-- The operand positions that fill the word of an opcode. -/
def Opcode.fieldPositions (opcode : Opcode) : List Nat :=
  match opcode.wordSources? with
  | some sources =>
      sources.source?.toList ++ (sources.destination?.toList ++ sources.value.positions)
  | none => []

section

variable {opcode : Opcode} {operands others : List Operand}

theorem toOption_bind_operand_congr {result : Type} {position : Nat}
    {next otherNext : Operand → Except CodeError result}
    (here : others[position]? = operands[position]?)
    (there : ∀ operand, (otherNext operand).toOption = (next operand).toOption) :
    (Instr.operand ⟨opcode, others⟩ position >>= otherNext).toOption =
      (Instr.operand ⟨opcode, operands⟩ position >>= next).toOption := by
  refine toOption_bind_congr ?_ there
  unfold Instr.operand
  dsimp only
  rw [here]
  cases operands[position]? <;> rfl

theorem toOption_nibble_congr {position? : Option Nat}
    (same : ∀ position ∈ position?.toList, others[position]? = operands[position]?) :
    (Instr.nibble ⟨opcode, others⟩ position?).toOption =
      (Instr.nibble ⟨opcode, operands⟩ position?).toOption := by
  cases position? with
  | none => rfl
  | some position =>
      refine toOption_bind_operand_congr (same position (List.mem_singleton_self position)) ?_
      intro operand
      cases operand <;> rfl

theorem toOption_fieldValue_congr {source : ValueSource}
    (same : ∀ position ∈ source.positions, others[position]? = operands[position]?) :
    (Instr.fieldValue ⟨opcode, others⟩ source).toOption =
      (Instr.fieldValue ⟨opcode, operands⟩ source).toOption := by
  cases source with
  | zero => rfl
  | operand position =>
      refine toOption_bind_operand_congr (same position (List.mem_singleton_self position)) ?_
      intro operand
      cases operand <;> rfl
  | memory position =>
      rw [ValueSource.positions, List.forall_mem_cons, List.forall_mem_singleton] at same
      refine toOption_bind_congr (toOption_bind_congr ?_ fun base => ?_) fun _ => rfl
      · refine toOption_bind_operand_congr same.1 ?_
        intro operand
        cases operand <;> rfl
      · refine toOption_bind_congr rfl fun _ => toOption_bind_congr ?_ fun _ => rfl
        refine toOption_bind_operand_congr same.2 ?_
        intro operand
        cases operand <;> rfl

theorem toOption_encode_congr (order : ByteOrder)
    (same : ∀ position ∈ opcode.fieldPositions, others[position]? = operands[position]?) :
    (Instr.encode order ⟨opcode, others⟩).toOption =
      (Instr.encode order ⟨opcode, operands⟩).toOption := by
  rw [Instr.encode, Instr.encodeWords_eq, Instr.encode, Instr.encodeWords_eq]
  refine toOption_bind_congr (toOption_bind_congr ?_ fun _ => rfl) fun _ => rfl
  unfold Instr.encodeWord
  dsimp only
  split
  next byte sources _ sourcesEq =>
    rw [Opcode.fieldPositions, sourcesEq] at same
    simp only [List.forall_mem_append] at same
    obtain ⟨sameSource, sameDestination, sameValue⟩ := same
    refine toOption_bind_congr (toOption_nibble_congr sameSource) fun source => ?_
    refine toOption_bind_congr (toOption_nibble_congr sameDestination) fun destination => ?_
    exact toOption_bind_congr (toOption_fieldValue_congr sameValue) fun _ => rfl
  next => rfl

end

/-! ## The encoder -/

/-- An instruction can be encoded exactly if the operands that fill its word fit, and no other
operand has an influence on the code. The code is as long as the opcode says. It has one fixup for a
value that is a symbol or a block, and none for any other. -/
theorem encode_acceptance (order : ByteOrder) (instr : Instr) :
    ((∃ encoded, instr.encode order = .ok encoded) ↔ instr.isEncodable = true) ∧
      (∀ other : Instr, other.opcode = instr.opcode →
        (∀ position ∈ instr.opcode.fieldPositions,
          other.operands[position]? = instr.operands[position]?) →
        (other.encode order).toOption = (instr.encode order).toOption) ∧
      ∀ encoded, instr.encode order = .ok encoded →
        encoded.bytes.length = instr.opcode.encodedLength ∧
          encoded.fixups = (instr.deferred?.map fun target =>
            { offset := 4
              target
              kind :=
                if instr.opcode = .jal then .secRel4
                else if instr.opcode = .ldImm64 then .secRel8
                else .pcRel2 }).toList := by
  refine ⟨?_, ?_, ?_⟩
  · rw [exists_eq_ok_iff_isOk, Instr.isOk_encode]
  · intro other sameOpcode same
    obtain ⟨opcode, operands⟩ := instr
    obtain ⟨_, others⟩ := other
    cases sameOpcode
    exact toOption_encode_congr order same
  · intro encoded ran
    obtain ⟨length, fixups, -⟩ := Instr.encode_fixups ran
    refine ⟨length, fixups.trans ?_⟩
    have kindEq : instr.opcode.fixupKind =
        if instr.opcode = .jal then .secRel4
        else if instr.opcode = .ldImm64 then .secRel8 else .pcRel2 := by
      cases instr.opcode <;> rfl
    rw [← kindEq]
    rfl

/-- A load of the address of a table. -/
def loadingTable : Instr :=
  { opcode := .ldImm64, operands := [.define .sr, .symbol "table"] }

/-- The same load with a frame slot that no field of its word takes. -/
def loadingTableBesideSlot : Instr :=
  { opcode := .ldImm64, operands := [.define .sr, .symbol "table", .frameIndex 3] }

def loadingTableCode : EncodedInstr where
  bytes := [0x18, 0x20, 0, 0, 0, 0, 0, 0, 0, 0, 0, 0, 0, 0, 0, 0]
  fixups := [{ offset := 4, target := .symbol "table", kind := .secRel8 }]

theorem encode_acceptance_loadingTable :
    loadingTable.encode .big = .ok loadingTableCode ∧
      loadingTable.isEncodable = true ∧
      loadingTableCode.bytes.length = loadingTable.opcode.encodedLength ∧
      (∀ position ∈ loadingTable.opcode.fieldPositions,
        loadingTableBesideSlot.operands[position]? = loadingTable.operands[position]?) ∧
      (loadingTableBesideSlot.encode .big).toOption = some loadingTableCode := by
  have ran : loadingTable.encode .big = .ok loadingTableCode := by decide +kernel
  have sameFields : ∀ position ∈ loadingTable.opcode.fieldPositions,
      loadingTableBesideSlot.operands[position]? = loadingTable.operands[position]? := by decide
  obtain ⟨accepts, besides, codes⟩ := encode_acceptance .big loadingTable
  refine ⟨ran, accepts.mp ⟨_, ran⟩, (codes _ ran).1, sameFields, ?_⟩
  rw [besides loadingTableBesideSlot rfl sameFields, ran]
  rfl

end MachineCode
