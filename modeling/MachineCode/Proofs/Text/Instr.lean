import MachineCode.Proofs.Checked
import MachineCode.Proofs.Text.Operand

/-!
# Instructions are read back

The written form of an instruction is cut at the first equals sign, at the blank behind the opcode
and at the commas. The operands are found again if those that the instruction writes explicitly
come first, and if no symbol brings an equals sign of its own before the first one.
-/

namespace MachineCode.Text

/-- Whether an operand brings an equals sign of its own. -/
def holdsEquals : Operand → Bool
  | .symbol name => name.toList.contains '='
  | _ => false

/-- An instruction whose written form can be cut into its operands. -/
structure IsSeparable (instr : Instr) : Prop where
  /-- The registers that are written explicitly come first. -/
  definitions : ∀ operand ∈ instr.operands.dropWhile Instr.isLeading,
    Instr.isLeading operand = false
  /-- An equals sign in a symbol stands behind the one that follows the definitions. -/
  equals : instr.operands.takeWhile Instr.isLeading = [] →
    ∀ operand ∈ instr.operands, holdsEquals operand = false

instance : DecidablePred IsSeparable := fun _ =>
  decidable_of_iff (_ ∧ _) ⟨fun both => ⟨both.1, both.2⟩, fun both => ⟨both.1, both.2⟩⟩

/-- An instruction that has a written form in a function with the given number of blocks. -/
structure IsWritableInstr (blocks : Nat) (instr : Instr) : Prop extends IsSeparable instr where
  operands : ∀ operand ∈ instr.operands, IsWritable blocks operand

/-- What the written form of an instruction says. -/
def instrAsWritten (instr : Instr) : Instr :=
  { instr with operands := instr.operands.map asWritten }

/-! ## Cutting the text of an instruction -/

theorem opcode_name_chars (opcode : Opcode) :
    opcode.name.toList ≠ [] ∧
      ∀ char ∈ opcode.name.toList, char.isAlphanum = true ∨ char = '_' := by
  cases opcode <;> decide

theorem forall_mem_name_opcode (opcode : Opcode) :
    opcode.name.toList ≠ [] ∧ ∀ char ∈ opcode.name.toList, isPlainChar char = true := by
  obtain ⟨nonempty, chars⟩ := opcode_name_chars opcode
  refine ⟨nonempty, ?_⟩
  intro char member
  obtain alphanum | rfl := chars char member
  · exact isPlainChar_of_isAlphanum alphanum
  · decide

theorem isWord_name_opcode (opcode : Opcode) : IsWord opcode.name.toList := by
  obtain ⟨nonempty, plain⟩ := forall_mem_name_opcode opcode
  exact ⟨nonempty, fun char member =>
    isSpace_of_isWordChar (isWordChar_of_isPlainChar (plain char member))⟩

def opcodeText (name : List Char) (fields : List (List Char)) : List Char :=
  if fields.isEmpty then name else name ++ ' ' :: [',', ' '].intercalate fields

/-- An instruction with fields on both sides of the opcode's name. -/
def fieldsText (written : List (List Char)) (name : List Char) (used : List (List Char)) :
    List Char :=
  if written.isEmpty then opcodeText name used
  else ([',', ' '].intercalate written ++ [' ']) ++ '=' :: ' ' :: opcodeText name used

/-- The fields that operands are written as. -/
structure IsFields (fields : List (List Char)) : Prop where
  nonempty : ∀ field ∈ fields, field ≠ []
  trimmed : ∀ field ∈ fields, IsTrimmed field
  noComma : ∀ field ∈ fields, ',' ∉ field

theorem mem_opcodeText {name : List Char} {fields : List (List Char)} {char : Char}
    (member : char ∈ opcodeText name fields) :
    char ∈ name ∨ char ∈ [',', ' '] ∨ ∃ field ∈ fields, char ∈ field := by
  cases fields with
  | nil => exact .inl member
  | cons field rest =>
      change char ∈ name ++ ' ' :: _ at member
      rw [List.mem_append, List.mem_cons] at member
      rcases member with inName | rfl | inFields
      · exact .inl inName
      · exact .inr (.inl (by decide))
      · exact .inr (mem_intercalate inFields)

theorem mem_fieldsText {written used : List (List Char)} {name : List Char} {char : Char}
    (member : char ∈ fieldsText written name used) :
    char ∈ name ∨ char ∈ [',', ' ', '='] ∨ ∃ field ∈ written ++ used, char ∈ field := by
  have inRest (inOpcodeText : char ∈ opcodeText name used) :
      char ∈ name ∨ char ∈ [',', ' ', '='] ∨ ∃ field ∈ written ++ used, char ∈ field := by
    obtain inName | inSeparator | ⟨field, isField, inField⟩ := mem_opcodeText inOpcodeText
    · exact .inl inName
    · exact .inr (.inl (List.mem_append_left ['='] inSeparator))
    · exact .inr (.inr ⟨field, List.mem_append_right written isField, inField⟩)
  rw [fieldsText] at member
  split at member
  next => exact inRest member
  next =>
    rw [List.mem_append, List.mem_append, List.mem_singleton, List.mem_cons,
      List.mem_cons] at member
    rcases member with (inWritten | rfl) | rfl | rfl | inOpcodeText
    · obtain inSeparator | ⟨field, isField, inField⟩ := mem_intercalate inWritten
      · exact .inr (.inl (List.mem_append_left ['='] inSeparator))
      · exact .inr (.inr ⟨field, List.mem_append_left used isField, inField⟩)
    · exact .inr (.inl (by decide))
    · exact .inr (.inl (by decide))
    · exact .inr (.inl (by decide))
    · exact inRest inOpcodeText

theorem opcodeText_ne_nil {name : List Char} (nonempty : name ≠ []) (fields : List (List Char)) :
    opcodeText name fields ≠ [] := by
  rw [opcodeText]
  split
  · exact nonempty
  · simp

theorem isTrimmed_opcodeText {name : List Char} {fields : List (List Char)} (isWord : IsWord name)
    (isFields : IsFields fields) : IsTrimmed (opcodeText name fields) := by
  cases fields with
  | nil => exact isWord.isTrimmed
  | cons field rest =>
      exact isWord.isTrimmed.append (.intercalate isFields.trimmed isFields.nonempty)
        isWord.nonempty (intercalate_ne_nil (by simp) isFields.nonempty _) [' ']

theorem splitOpcode_opcodeText {name : List Char} {fields : List (List Char)}
    (isWord : IsWord name) (isFields : IsFields fields) :
    splitOpcode (opcodeText name fields) = (name, [',', ' '].intercalate fields) := by
  cases fields with
  | nil =>
      change splitOpcode name = _
      rw [splitOpcode, splitFirst_eq_none isWord.noSpace, List.intercalate_nil]
  | cons field rest =>
      change splitOpcode (name ++ ' ' :: _) = _
      rw [splitOpcode, splitFirst_append_cons isWord.noSpace (by decide)]
      exact congrArg _ (trim_of_isTrimmed (.intercalate isFields.trimmed isFields.nonempty))

theorem beq_equals_of_not_mem {text : List Char} (free : '=' ∉ text) :
    ∀ char ∈ text, (char == '=') = false := by
  intro char member
  rw [beq_eq_false_iff_ne]
  rintro rfl
  exact free member

theorem splitDefinitions_opcodeText {name : List Char} {used : List (List Char)}
    (free : '=' ∉ opcodeText name used) :
    splitDefinitions (fieldsText [] name used) = (none, opcodeText name used) := by
  change splitDefinitions (opcodeText name used) = _
  rw [splitDefinitions, splitFirst_eq_none (beq_equals_of_not_mem free)]

theorem splitDefinitions_fieldsText {written used : List (List Char)} {name : List Char}
    (nonempty : written ≠ []) (isWord : IsWord name) (isUsed : IsFields used)
    (free : ∀ field ∈ written, '=' ∉ field) :
    splitDefinitions (fieldsText written name used) =
      (some ([',', ' '].intercalate written ++ [' ']), opcodeText name used) := by
  have sideFree : '=' ∉ [',', ' '].intercalate written ++ [' '] := by
    intro member
    rcases List.mem_append.mp member with inFields | isBlank
    · obtain inSeparator | ⟨field, isField, inField⟩ := mem_intercalate inFields
      · exact absurd inSeparator (by decide)
      · exact free field isField inField
    · exact absurd isBlank (by decide)
  rw [fieldsText, if_neg (by simpa using nonempty), splitDefinitions,
    splitFirst_append_cons (beq_equals_of_not_mem sideFree) (by decide)]
  simp only [trim_cons_blank, trim_of_isTrimmed (isTrimmed_opcodeText isWord isUsed)]

theorem readUses_intercalate {labels : List (List Char)} {line : SourceLine}
    {fields : List (List Char)} (isFields : IsFields fields) :
    readUses labels line ([',', ' '].intercalate fields) =
      fields.mapM (readOperand labels line) := by
  cases fields with
  | nil => rfl
  | cons field rest =>
      have nonempty := intercalate_ne_nil (by simp) isFields.nonempty
      have cut : commaFields ([',', ' '].intercalate (field :: rest) ++ []) = field :: rest :=
        commaFields_intercalate (by simp) isFields.noComma isFields.trimmed (by simp)
      rw [List.append_nil] at cut
      rw [readUses, if_neg (by simpa using nonempty [',', ' ']), cut]

theorem readInstr_fieldsText {labels : List (List Char)} {line : SourceLine} {opcode : Opcode}
    {written used : List (List Char)}
    (isWritten : IsFields written) (isUsed : IsFields used)
    (writtenFree : ∀ field ∈ written, '=' ∉ field)
    (usedFree : written = [] → '=' ∉ opcodeText opcode.name.toList used)
    (textEq : line.text = fieldsText written opcode.name.toList used) :
    readInstr labels line = (do
      let definitions ← written.mapM (readDefinition labels line)
      let uses ← used.mapM (readOperand labels line)
      .ok { opcode, operands := definitions ++ uses }) := by
  have isWord := isWord_name_opcode opcode
  rw [readInstr, textEq]
  cases written with
  | nil =>
      rw [splitDefinitions_opcodeText (usedFree rfl)]
      simp only [splitOpcode_opcodeText isWord isUsed, String.ofList_toList, Opcode.ofName?_name,
        readDefinitions, readUses_intercalate isUsed]
      rfl
  | cons field rest =>
      rw [splitDefinitions_fieldsText (by simp) isWord isUsed writtenFree]
      simp only [splitOpcode_opcodeText isWord isUsed, String.ofList_toList, Opcode.ofName?_name,
        readDefinitions, readUses_intercalate isUsed]
      rw [commaFields_intercalate (by simp) isWritten.noComma isWritten.trimmed (by decide)]

/-! ## The fields of an instruction -/

section

variable {render : Nat → Operand → String} {operands : List Operand}

def fieldsOf (render : Nat → Operand → String) (operands : List Operand) : List (List Char) :=
  (operands.mapIdx render).map String.toList

theorem fieldsOf_cons (operand : Operand) :
    fieldsOf render (operand :: operands) =
      (render 0 operand).toList :: fieldsOf (fun position => render (position + 1)) operands := by
  rw [fieldsOf, List.mapIdx_cons, List.map_cons]
  rfl

theorem exists_of_mem_fieldsOf {field : List Char} (isField : field ∈ fieldsOf render operands) :
    ∃ operand ∈ operands, ∃ position, (render position operand).toList = field := by
  obtain ⟨text, isText, rfl⟩ := List.mem_map.mp isField
  obtain ⟨position, bound, rfl⟩ := List.mem_mapIdx.mp isText
  exact ⟨_, List.getElem_mem bound, position, rfl⟩

theorem mapM_fieldsOf {read : List Char → Except ReadError Operand}
    (reads : ∀ operand ∈ operands, ∀ position,
      read (render position operand).toList = .ok (asWritten operand)) :
    (fieldsOf render operands).mapM read = .ok (operands.map asWritten) := by
  induction operands generalizing render with
  | nil => rfl
  | cons operand rest ih =>
      rw [List.forall_mem_cons] at reads
      rw [fieldsOf_cons, List.mapM_cons, reads.1, ih fun other member position =>
        reads.2 other member (position + 1)]
      rfl

end

section

variable (blockName : BlockId → String) (instr : Instr)

/-- The fields to the left of the equals sign. -/
def writtenFields : List (List Char) :=
  fieldsOf (Operand.text blockName instr.opcode) (instr.operands.takeWhile Instr.isLeading)

/-- The fields behind the opcode. -/
def usedFields : List (List Char) :=
  fieldsOf
    (fun position => Operand.text blockName instr.opcode
      (position + (instr.operands.takeWhile Instr.isLeading).length))
    (instr.operands.dropWhile Instr.isLeading)

theorem toList_text_instr :
    (instr.text blockName).toList =
      fieldsText (writtenFields blockName instr) instr.opcode.name.toList
        (usedFields blockName instr) := by
  have splitEq := List.takeWhile_append_dropWhile (p := Instr.isLeading) (l := instr.operands)
  rw [Instr.text, writtenFields, usedFields]
  generalize instr.operands.takeWhile Instr.isLeading = front at splitEq ⊢
  generalize instr.operands.dropWhile Instr.isLeading = back at splitEq ⊢
  rw [← splitEq, List.mapIdx_append, List.take_left' List.length_mapIdx,
    List.drop_left' List.length_mapIdx]
  cases front <;> cases back <;>
    simp [fieldsText, opcodeText, fieldsOf, String.toList_append, String.toList_intercalate]

end

section

variable {labels : List (List Char)} {blockName : BlockId → String} {instr : Instr}

theorem mem_fieldsOf {operands : List Operand} {opcode : Opcode} {field : List Char} {char : Char}
    (shift : Nat → Nat) (names : Names labels blockName)
    (writable : ∀ operand ∈ operands, IsWritable labels.length operand)
    (isField : field ∈ fieldsOf (fun position => Operand.text blockName opcode (shift position))
      operands) (member : char ∈ field) :
    char = ' ' ∨ isPlainChar char = true ∨
      ∃ name, .symbol name ∈ operands ∧ char ∈ name.toList := by
  obtain ⟨operand, isOperand, position, rfl⟩ := exists_of_mem_fieldsOf isField
  obtain blank | plain | ⟨name, rfl, inName⟩ :=
    mem_text_operand opcode (shift position) names (writable operand isOperand) member
  · exact .inl blank
  · exact .inr (.inl plain)
  · exact .inr (.inr ⟨name, isOperand, inName⟩)

theorem isFields_fieldsOf {operands : List Operand} (names : Names labels blockName)
    (writable : ∀ operand ∈ operands, IsWritable labels.length operand) (opcode : Opcode)
    (shift : Nat → Nat) :
    IsFields (fieldsOf (fun position => Operand.text blockName opcode (shift position))
      operands) where
  nonempty field isField := by
    obtain ⟨operand, -, position, rfl⟩ := exists_of_mem_fieldsOf isField
    exact text_operand_ne_nil opcode (shift position) operand
  trimmed field isField := by
    obtain ⟨operand, isOperand, position, rfl⟩ := exists_of_mem_fieldsOf isField
    exact isTrimmed_text_operand opcode (shift position) names (writable operand isOperand)
  noComma field isField comma := by
    obtain blank | plain | ⟨name, isSymbol, inName⟩ :=
      mem_fieldsOf shift names writable isField comma
    · contradiction
    · contradiction
    · exact absurd (writable _ isSymbol ',' inName) (by decide)

theorem IsWritableInstr.written (writable : IsWritableInstr labels.length instr) :
    ∀ operand ∈ instr.operands.takeWhile Instr.isLeading, IsWritable labels.length operand :=
  fun operand member => writable.operands operand ((List.takeWhile_sublist _).mem member)

theorem IsWritableInstr.used (writable : IsWritableInstr labels.length instr) :
    ∀ operand ∈ instr.operands.dropWhile Instr.isLeading, IsWritable labels.length operand :=
  fun operand member => writable.operands operand ((List.dropWhile_suffix _).mem member)

theorem isFields_writtenFields (names : Names labels blockName)
    (writable : IsWritableInstr labels.length instr) : IsFields (writtenFields blockName instr) :=
  isFields_fieldsOf names writable.written instr.opcode id

theorem isFields_usedFields (names : Names labels blockName)
    (writable : IsWritableInstr labels.length instr) : IsFields (usedFields blockName instr) :=
  isFields_fieldsOf names writable.used instr.opcode _

/-- What stands to the left of the equals sign is a register. -/
theorem equals_not_mem_writtenFields (names : Names labels blockName)
    (writable : IsWritableInstr labels.length instr) :
    ∀ field ∈ writtenFields blockName instr, '=' ∉ field := by
  intro field isField equals
  obtain blank | plain | ⟨name, isSymbol, -⟩ :=
    mem_fieldsOf id names writable.written isField equals
  · contradiction
  · contradiction
  · cases List.mem_takeWhile_imp isSymbol

theorem equals_not_mem_opcodeText (names : Names labels blockName)
    (writable : IsWritableInstr labels.length instr)
    (noDefinition : writtenFields blockName instr = []) :
    '=' ∉ opcodeText instr.opcode.name.toList (usedFields blockName instr) := by
  have noLeading : instr.operands.takeWhile Instr.isLeading = [] := by
    simpa [writtenFields, fieldsOf] using noDefinition
  intro equals
  obtain inName | inSeparator | ⟨field, isField, inField⟩ := mem_opcodeText equals
  · exact absurd ((forall_mem_name_opcode instr.opcode).2 '=' inName) (by decide)
  · exact absurd inSeparator (by decide)
  · obtain blank | plain | ⟨name, isSymbol, inSymbol⟩ :=
      mem_fieldsOf _ names writable.used isField inField
    · contradiction
    · contradiction
    · have noEquals :=
        writable.equals noLeading (.symbol name) ((List.dropWhile_suffix _).mem isSymbol)
      exact absurd (List.contains_iff_mem.mpr inSymbol) (Bool.eq_false_iff.mp noEquals)

/-- An instruction is read back. -/
theorem readInstr_text (names : Names labels blockName)
    (writable : IsWritableInstr labels.length instr) {line : SourceLine}
    (textEq : line.text = (instr.text blockName).toList) :
    readInstr labels line = .ok (instrAsWritten instr) := by
  rw [toList_text_instr] at textEq
  have definitions : (writtenFields blockName instr).mapM (readDefinition labels line) =
      .ok ((instr.operands.takeWhile Instr.isLeading).map asWritten) :=
    mapM_fieldsOf fun operand member position =>
      readDefinition_text _ _ names (writable.written operand member) line
        (List.mem_takeWhile_imp member)
  have uses : (usedFields blockName instr).mapM (readOperand labels line) =
      .ok ((instr.operands.dropWhile Instr.isLeading).map asWritten) :=
    mapM_fieldsOf fun operand member position =>
      readOperand_text _ _ names (writable.used operand member) line
        (writable.definitions operand member)
  rw [readInstr_fieldsText (isFields_writtenFields names writable)
    (isFields_usedFields names writable) (equals_not_mem_writtenFields names writable)
    (equals_not_mem_opcodeText names writable) textEq, definitions, uses]
  simp only [bind, Except.bind, instrAsWritten, ← List.map_append,
    List.takeWhile_append_dropWhile]

/-! ## The line of an instruction -/

theorem label?_eq_none_of_mem {text : List Char} {char : Char} (member : char ∈ text)
    (noLabel : isLabelChar char = false) (noColon : char ≠ ':') : label? text = none := by
  rw [label?, if_neg]
  rintro ⟨lastEq, -, allLabel⟩
  obtain ⟨front, rfl⟩ := List.getLast?_eq_some_iff.mp lastEq
  rw [List.dropLast_concat, List.all_eq_true] at allLabel
  rcases List.mem_append.mp member with inFront | isLast
  · cases noLabel.symm.trans (allLabel char inFront)
  · exact noColon (List.mem_singleton.mp isLast)

theorem mem_text_instr {char : Char} (names : Names labels blockName)
    (writable : IsWritableInstr labels.length instr)
    (member : char ∈ (instr.text blockName).toList) :
    char ∈ [',', ' ', '='] ∨ isWordChar char = true := by
  have symbolChar {operands : List Operand}
      (operandsWritable : ∀ operand ∈ operands, IsWritable labels.length operand)
      (cases : char = ' ' ∨ isPlainChar char = true ∨
        ∃ name, .symbol name ∈ operands ∧ char ∈ name.toList) :
      char ∈ [',', ' ', '='] ∨ isWordChar char = true := by
    obtain rfl | plain | ⟨name, isSymbol, inName⟩ := cases
    · exact .inl (by decide)
    · exact .inr (isWordChar_of_isPlainChar plain)
    · exact .inr (operandsWritable _ isSymbol char inName)
  rw [toList_text_instr] at member
  obtain inName | inSeparator | ⟨field, isField, inField⟩ := mem_fieldsText member
  · exact .inr (isWordChar_of_isPlainChar ((forall_mem_name_opcode instr.opcode).2 char inName))
  · exact .inl inSeparator
  · rcases List.mem_append.mp isField with isWritten | isUsed
    · exact symbolChar writable.written (mem_fieldsOf id names writable.written isWritten inField)
    · exact symbolChar writable.used (mem_fieldsOf _ names writable.used isUsed inField)

theorem isTrimmed_text_instr (names : Names labels blockName)
    (writable : IsWritableInstr labels.length instr) :
    IsTrimmed (instr.text blockName).toList := by
  have isWord := isWord_name_opcode instr.opcode
  have isWritten := isFields_writtenFields names writable
  have restTrimmed := isTrimmed_opcodeText isWord (isFields_usedFields names writable)
  rw [toList_text_instr, fieldsText]
  split
  next => exact restTrimmed
  next nonempty =>
    have writtenNonempty : writtenFields blockName instr ≠ [] := by simpa using nonempty
    have joined := IsTrimmed.append (.intercalate isWritten.trimmed isWritten.nonempty) restTrimmed
      (intercalate_ne_nil writtenNonempty isWritten.nonempty [',', ' '])
      (opcodeText_ne_nil isWord.nonempty _) [' ', '=', ' ']
    simpa using joined

end

section

variable (blockName : BlockId → String) (instr : Instr)

theorem text_instr_ne_nil : (instr.text blockName).toList ≠ [] := by
  rw [toList_text_instr, fieldsText]
  split
  · exact opcodeText_ne_nil (forall_mem_name_opcode instr.opcode).1 _
  · simp

/-- An instruction with operands is written with a blank. -/
theorem text_instr_eq_name_or_blank_mem :
    (instr.text blockName).toList = instr.opcode.name.toList ∨
      ' ' ∈ (instr.text blockName).toList := by
  rw [toList_text_instr, fieldsText]
  split
  · rw [opcodeText]
    split
    · exact .inl rfl
    · exact .inr (by simp)
  · exact .inr (by simp)

theorem label?_text_instr : label? (instr.text blockName).toList = none := by
  rcases text_instr_eq_name_or_blank_mem blockName instr with isName | blank
  · rw [isName, label?, if_neg]
    rintro ⟨lastEq, -⟩
    exact absurd ((opcode_name_chars instr.opcode).2 ':' (List.mem_of_getLast? lastEq)) (by decide)
  · exact label?_eq_none_of_mem blank (isLabelChar_of_isSpace (by decide)) (by decide)

theorem text_instr_ne_brace : (instr.text blockName).toList ≠ ['\x7d'] := by
  intro isBrace
  rcases text_instr_eq_name_or_blank_mem blockName instr with isName | blank
  · have inName : '\x7d' ∈ instr.opcode.name.toList := by
      rw [← isName, isBrace]
      exact List.mem_singleton_self _
    exact absurd ((opcode_name_chars instr.opcode).2 '\x7d' inName) (by decide)
  · rw [isBrace] at blank
    exact absurd blank (by decide)

end

end MachineCode.Text
