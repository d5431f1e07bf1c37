import MachineCode.Proofs.Text.Character
import Mathlib.Data.List.Nodup

/-!
# Operands are read back

The written form of an operand consists of words without commas and semicolons. Reading the words
gives the operand, but for the mark of a dead value on a register that the instruction does not
write, which has no written form.
-/

namespace MachineCode.Text

/-! ## Reading words -/

theorem readRegister?_name (line : SourceLine) (reg : Reg) :
    readRegister? line reg.name.toList = .ok (some reg) := by
  cases reg with
  | physical register =>
      have noMark (digits : List Char) : register.name.toList ≠ '%' :: digits := by
        intro marked
        have alphanum := (isRegisterName_name register).chars '%' (by simp [marked])
        contradiction
      rw [Reg.name, readRegister?]
      · simp
      · exact noMark
  | virtual number =>
      have fits : number.toNat < UInt32.size := number.toNat_lt
      rw [Reg.name, String.toList_append, Nat.toList_repr]
      change readRegister? line ('%' :: Nat.toDigits 10 number.toNat) = _
      rw [readRegister?, readUnsigned?_toDigits fits]
      simp

theorem readRegister?_eq_none {line : SourceLine} {word : List Char}
    (noMark : ∀ digits, word ≠ '%' :: digits)
    (noName : ∀ register : Register, register.name.toList ≠ word) :
    readRegister? line word = .ok none := by
  have unknown : Register.ofName? (.ofList word) = none := by
    rw [Register.ofName?, List.find?_eq_none]
    intro register _ named
    apply noName register
    rw [beq_iff_eq.mp named, String.toList_ofList]
  rw [readRegister?, unknown]
  · rfl
  · exact noMark

/-- No register has a name that starts with another character. -/
theorem name_ne_of_head? {word : List Char} {char : Char} (headEq : word.head? = some char)
    (other : char ∉ ['p', 's', 'c', 'f', 'r']) (register : Register) :
    register.name.toList ≠ word := by
  rintro rfl
  obtain ⟨first, isFirst, firstEq⟩ := (isRegisterName_name register).first
  cases headEq.symm.trans firstEq
  exact other isFirst

theorem readRegister?_mnemonic (line : SourceLine) (condition : Condition) :
    readRegister? line condition.mnemonic.toList = .ok none := by
  apply readRegister?_eq_none
  · cases condition <;> simp [Condition.mnemonic]
  · cases condition <;> exact name_ne_of_head? rfl (by decide)

theorem readRegister?_of_startsNumber {line : SourceLine} {word : List Char}
    (starts : startsNumber word = true) : readRegister? line word = .ok none := by
  cases word with
  | nil => contradiction
  | cons first rest =>
      rw [startsNumber, Bool.or_eq_true, beq_iff_eq] at starts
      have other {char : Char} (noDigit : char.isDigit = false) (noSign : char ≠ '-') :
          first ≠ char := by
        rintro rfl
        simp_all
      apply readRegister?_eq_none
      · intro digits marked
        exact other (by decide) (by decide) (List.cons.inj marked).1
      · apply name_ne_of_head? rfl
        simp [other]

/-- A single word is a register or an operand of another kind. -/
theorem readOperand_of_word {labels : List (List Char)} {line : SourceLine} {text word : List Char}
    (wordsEq : words text = [word]) (noRegister : readRegister? line word = .ok none) :
    readOperand labels line text = readPlainOperand labels line word := by
  rw [readOperand, wordsEq]
  simp [noRegister, bind, Except.bind, pure, Except.pure]

/-- No register has a name with a character that is neither a letter nor a digit. -/
theorem readOperand_of_mem {labels : List (List Char)} {line : SourceLine} {text : List Char}
    (wordsEq : words text = [text]) (noMark : ∀ digits, text ≠ '%' :: digits) (char : Char)
    (member : char ∈ text) (noName : char.isAlphanum = false) :
    readOperand labels line text = readPlainOperand labels line text := by
  apply readOperand_of_word wordsEq
  apply readRegister?_eq_none noMark
  rintro register rfl
  cases noName.symm.trans ((isRegisterName_name register).chars char member)

theorem readPlainOperand_symbol (labels : List (List Char)) (line : SourceLine) (name : String) :
    readPlainOperand labels line ('@' :: name.toList) = .ok (.symbol name) := by
  rw [readPlainOperand, String.ofList_toList]

theorem readPlainOperand_block {labels : List (List Char)} {line : SourceLine} {target : BlockId}
    {name : List Char} (found : labels[target]? = some name) (distinct : labels.Nodup) :
    readPlainOperand labels line ('^' :: name) = .ok (.block target) := by
  obtain ⟨bound, nameEq⟩ := List.getElem?_eq_some_iff.mp found
  have index : labels.findIdx? (· == name) = some target := by
    rw [List.findIdx?_eq_some_iff_getElem]
    refine ⟨bound, by simp [nameEq], ?_⟩
    intro earlier before
    rw [beq_iff_eq, ← nameEq, distinct.getElem_inj_iff]
    exact Nat.ne_of_lt before
  rw [readPlainOperand, readBlock, index]
  rfl

theorem readPlainOperand_frameIndex (labels : List (List Char)) (line : SourceLine)
    (index : FrameIndex) :
    readPlainOperand labels line ('f' :: 'i' :: '#' :: index.toInt.repr.toList) =
      .ok (.frameIndex index) := by
  have lower := index.le_toInt
  have upper := index.toInt_lt
  have valueEq : (Int64.ofInt index.toInt).toInt = index.toInt :=
    Int64.toInt_ofInt_of_le (by omega) (by omega)
  have read := readInteger?_toInt (Int64.ofInt index.toInt)
  rw [valueEq] at read
  rw [readPlainOperand, readFrameIndex, readInteger, read]
  simp only [bind, Except.bind, valueEq]
  rw [if_pos ⟨lower, Int.le_of_lt_add_one upper⟩]
  simp

theorem readPlainOperand_condition (labels : List (List Char)) (line : SourceLine)
    (condition : Condition) :
    readPlainOperand labels line condition.mnemonic.toList = .ok (.immediate condition.code) := by
  have known := Condition.ofMnemonic?_mnemonic condition
  cases condition <;> simp_all [readPlainOperand, Condition.mnemonic]

/-- A decimal number starts like a number. -/
theorem startsNumber_repr (value : Int) : startsNumber value.repr.toList = true := by
  rw [Int.repr_eq_if]
  split
  · rw [Nat.toList_repr]
    have digits := isDigit_of_mem_toDigits value.toNat
    cases digitsEq : Nat.toDigits 10 value.toNat with
    | nil => exact (Nat.toDigits_ne_nil digitsEq).elim
    | cons first rest =>
        rw [digitsEq] at digits
        rw [startsNumber, digits first (List.mem_cons_self ..)]
        rfl
  · rw [String.toList_append]
    rfl

/-- A word that starts like a number is read as one. -/
theorem readPlainOperand_of_startsNumber {labels : List (List Char)} {line : SourceLine}
    {word : List Char} (starts : startsNumber word = true) :
    readPlainOperand labels line word = .immediate <$> readInteger line word := by
  have noCondition : Condition.ofMnemonic? (.ofList word) = none := by
    rw [Condition.ofMnemonic?, List.find?_eq_none]
    intro condition _ named
    rw [beq_iff_eq] at named
    have noNumber : startsNumber condition.mnemonic.toList = false := by
      cases condition <;> rfl
    rw [named, String.toList_ofList, starts] at noNumber
    contradiction
  unfold readPlainOperand
  split
  next => cases starts
  next => cases starts
  next => cases starts
  next => rw [noCondition, if_pos starts]

theorem readPlainOperand_number (labels : List (List Char)) (line : SourceLine) (value : Int64) :
    readPlainOperand labels line value.toInt.repr.toList = .ok (.immediate value) := by
  rw [readPlainOperand_of_startsNumber (startsNumber_repr _), readInteger, readInteger?_toInt]
  rfl

/-! ## The words of an operand -/

/-- The words that the flags of a register are written as. -/
def flagWords (flags : RegisterFlags) : List (List Char) :=
  (if flags.isImplicit then [(if flags.isDef then "implicit-def" else "implicit").toList]
    else []) ++
    (if flags.isKilled then ["killed".toList] else []) ++
    (if flags.isDead && flags.isDef then ["dead".toList] else [])

def operandWords (blockName : BlockId → String) (opcode : Opcode) (position : Nat) :
    Operand → List (List Char)
  | .register reg flags => flagWords flags ++ [reg.name.toList]
  | operand => [(operand.text blockName opcode position).toList]

theorem toList_text_flags (flags : RegisterFlags) :
    flags.text.toList = (flagWords flags).flatMap (· ++ [' ']) := by
  obtain ⟨isDef, isImplicit, isKilled, isDead⟩ := flags
  cases isDef <;> cases isImplicit <;> cases isKilled <;> cases isDead <;> rfl

theorem intercalate_concat (front : List (List Char)) (last : List Char) :
    [' '].intercalate (front ++ [last]) = front.flatMap (· ++ [' ']) ++ last := by
  induction front with
  | nil => simp
  | cons part rest ih =>
      rw [List.cons_append, List.intercalate_cons_of_ne_nil (by simp), ih, List.flatMap_cons,
        List.append_assoc (part ++ [' '])]

section

variable (blockName : BlockId → String) (opcode : Opcode) (position : Nat)

theorem toList_text_symbol (name : String) :
    (Operand.text blockName opcode position (.symbol name)).toList = '@' :: name.toList := by
  rw [Operand.text, String.toList_append]
  rfl

theorem toList_text_block (target : BlockId) :
    (Operand.text blockName opcode position (.block target)).toList =
      '^' :: (blockName target).toList := by
  rw [Operand.text, String.toList_append]
  rfl

theorem toList_text_frameIndex (index : FrameIndex) :
    (Operand.text blockName opcode position (.frameIndex index)).toList =
      'f' :: 'i' :: '#' :: index.toInt.repr.toList := by
  rw [Operand.text, String.toList_append]
  rfl

end

theorem toList_text_operand (blockName : BlockId → String) (opcode : Opcode) (position : Nat)
    (operand : Operand) :
    (operand.text blockName opcode position).toList =
      [' '].intercalate (operandWords blockName opcode position operand) := by
  cases operand with
  | register reg flags =>
      rw [operandWords, intercalate_concat, ← toList_text_flags, ← String.toList_append]
      rfl
  | _ =>
      rw [operandWords, List.intercalate_singleton]
      simp

/-- What the written flags of a register say. -/
theorem foldlM_flagWords (line : SourceLine) (flags : RegisterFlags) :
    (flagWords flags).foldlM (readFlag line) {} =
      .ok { flags with
        isDef := flags.isDef && flags.isImplicit, isDead := flags.isDead && flags.isDef } := by
  obtain ⟨isDef, isImplicit, isKilled, isDead⟩ := flags
  cases isDef <;> cases isImplicit <;> cases isKilled <;> cases isDead <;>
    simp [flagWords, readFlag, bind, Except.bind, pure, Except.pure]

/-! ## Reading an operand -/

/-- The names of the blocks of a function, as the reader collects them. -/
structure Names (labels : List (List Char)) (blockName : BlockId → String) : Prop where
  found : ∀ id < labels.length, labels[id]? = some (blockName id).toList
  distinct : labels.Nodup
  isLabel : ∀ label ∈ labels, ∀ char ∈ label, isLabelChar char = true

/-- An operand that has a written form in a function with the given number of blocks. -/
def IsWritable (blocks : Nat) : Operand → Prop
  | .symbol name => ∀ char ∈ name.toList, isWordChar char = true
  | .block target => target < blocks
  | _ => True

/-- What the written form of an operand says. -/
def asWritten : Operand → Operand
  | .register reg flags => .register reg { flags with isDead := flags.isDead && flags.isDef }
  | operand => operand

theorem forall_mem_flagWords (flags : RegisterFlags) :
    ∀ word ∈ flagWords flags, word ≠ [] ∧ ∀ char ∈ word, isPlainChar char = true := by
  have every : ∀ word ∈ ["implicit-def", "implicit", "killed", "dead"].map String.toList,
      word ≠ [] ∧ ∀ char ∈ word, isPlainChar char = true := by
    decide
  intro word member
  apply every
  rw [flagWords, List.mem_append, List.mem_append] at member
  simp only [List.mem_ite_nil_right, List.mem_singleton] at member
  rcases member with (⟨-, rfl⟩ | ⟨-, rfl⟩) | ⟨-, rfl⟩
  · split <;> simp
  · simp
  · simp

theorem forall_mem_name (reg : Reg) :
    reg.name.toList ≠ [] ∧ ∀ char ∈ reg.name.toList, isPlainChar char = true := by
  cases reg with
  | physical register =>
      obtain ⟨⟨first, -, headEq⟩, chars⟩ := isRegisterName_name register
      refine ⟨?_, fun char member => isPlainChar_of_isAlphanum (chars char member)⟩
      intro empty
      rw [Reg.name] at empty
      rw [empty] at headEq
      contradiction
  | virtual number =>
      rw [Reg.name, String.toList_append, Nat.toList_repr]
      refine ⟨by simp, ?_⟩
      intro char member
      rcases List.mem_append.mp member with mark | digits
      · cases List.mem_singleton.mp mark
        decide
      · exact isPlainChar_of_isAlphanum
          (isAlphanum_of_isDigit (isDigit_of_mem_toDigits _ char digits))

section

variable {labels : List (List Char)} {blockName : BlockId → String} (opcode : Opcode)
  (position : Nat) {operand : Operand}

/-- The characters of an operand's words are plain, except for those of a symbol. -/
theorem mem_operandWords {word : List Char} {char : Char} (names : Names labels blockName)
    (writable : IsWritable labels.length operand)
    (isWord : word ∈ operandWords blockName opcode position operand) (member : char ∈ word) :
    isPlainChar char = true ∨ ∃ name, operand = .symbol name ∧ char ∈ name.toList := by
  cases operand with
  | register reg flags =>
      rcases List.mem_append.mp isWord with isFlag | isName
      · exact .inl ((forall_mem_flagWords flags word isFlag).2 char member)
      · cases List.mem_singleton.mp isName
        exact .inl ((forall_mem_name reg).2 char member)
  | immediate value =>
      cases List.mem_singleton.mp isWord
      rw [Operand.text] at member
      split at member
      next condition _ =>
        have every : ∀ other ∈ condition.mnemonic.toList, isPlainChar other = true := by
          cases condition <;> decide
        exact .inl (every char member)
      next => exact .inl (isPlainChar_of_mem_repr member)
  | symbol name =>
      cases List.mem_singleton.mp isWord
      rw [toList_text_symbol, List.mem_cons] at member
      rcases member with rfl | inName
      · exact .inl (by decide)
      · exact .inr ⟨name, rfl, inName⟩
  | block target =>
      cases List.mem_singleton.mp isWord
      rw [toList_text_block, List.mem_cons] at member
      rcases member with rfl | inName
      · exact .inl (by decide)
      · have isLabel := names.isLabel _ (List.mem_of_getElem? (names.found target writable))
        exact .inl (isPlainChar_of_isLabelChar (isLabel char inName))
  | frameIndex index =>
      cases List.mem_singleton.mp isWord
      rw [toList_text_frameIndex, List.mem_cons, List.mem_cons, List.mem_cons] at member
      rcases member with rfl | rfl | rfl | digits
      · exact .inl (by decide)
      · exact .inl (by decide)
      · exact .inl (by decide)
      · exact .inl (isPlainChar_of_mem_repr digits)

theorem operandWords_ne_nil (operand : Operand) :
    ∀ word ∈ operandWords blockName opcode position operand, word ≠ [] := by
  intro word member
  cases operand with
  | register reg flags =>
      rcases List.mem_append.mp member with isFlag | isName
      · exact (forall_mem_flagWords flags word isFlag).1
      · cases List.mem_singleton.mp isName
        exact (forall_mem_name reg).1
  | immediate value =>
      cases List.mem_singleton.mp member
      rw [Operand.text]
      split
      next condition _ => cases condition <;> decide
      next =>
        intro empty
        have starts := startsNumber_repr value.toInt
        rw [empty] at starts
        contradiction
  | symbol name | block target | frameIndex index =>
      cases List.mem_singleton.mp member
      rw [Operand.text, String.toList_append]
      simp

/-- The characters of an operand are blanks and plain characters, except for those of a symbol. -/
theorem mem_text_operand {char : Char} (names : Names labels blockName)
    (writable : IsWritable labels.length operand)
    (member : char ∈ (operand.text blockName opcode position).toList) :
    char = ' ' ∨ isPlainChar char = true ∨ ∃ name, operand = .symbol name ∧ char ∈ name.toList := by
  rw [toList_text_operand] at member
  obtain isBlank | ⟨word, isWord, inWord⟩ := mem_intercalate member
  · exact .inl (List.mem_singleton.mp isBlank)
  · exact .inr (mem_operandWords opcode position names writable isWord inWord)

theorem isWord_of_mem_operandWords (names : Names labels blockName)
    (writable : IsWritable labels.length operand) :
    ∀ word ∈ operandWords blockName opcode position operand, IsWord word := by
  intro word isWord
  refine ⟨operandWords_ne_nil opcode position operand word isWord, ?_⟩
  intro char member
  apply isSpace_of_isWordChar
  obtain plain | ⟨name, rfl, inName⟩ :=
    mem_operandWords opcode position names writable isWord member
  · exact isWordChar_of_isPlainChar plain
  · exact writable char inName

theorem words_text_operand (names : Names labels blockName)
    (writable : IsWritable labels.length operand) :
    words (operand.text blockName opcode position).toList =
      operandWords blockName opcode position operand := by
  rw [toList_text_operand]
  exact words_intercalate (isWord_of_mem_operandWords opcode position names writable)

theorem text_operand_ne_nil (operand : Operand) :
    (operand.text blockName opcode position).toList ≠ [] := by
  have wordsNonempty : ∀ word ∈ operandWords blockName opcode position operand, word ≠ [] :=
    operandWords_ne_nil opcode position operand
  cases operand with
  | register reg flags =>
      rw [toList_text_operand, operandWords, intercalate_concat]
      exact List.append_ne_nil_of_right_ne_nil _ (forall_mem_name reg).1
  | _ => simpa [operandWords] using wordsNonempty

theorem isTrimmed_text_operand (names : Names labels blockName)
    (writable : IsWritable labels.length operand) :
    IsTrimmed (operand.text blockName opcode position).toList := by
  rw [toList_text_operand]
  have isWord := isWord_of_mem_operandWords opcode position names writable
  exact .intercalate (fun word member => (isWord word member).isTrimmed)
    (fun word member => (isWord word member).nonempty)

theorem readOperand_register {line : SourceLine} {text : List Char} {reg : Reg}
    {flags : RegisterFlags} (wordsEq : words text = flagWords flags ++ [reg.name.toList]) :
    readOperand labels line text = .ok (.register reg { flags with
      isDef := flags.isDef && flags.isImplicit, isDead := flags.isDead && flags.isDef }) := by
  rw [readOperand, wordsEq, List.getLast?_concat, List.dropLast_concat]
  simp [foldlM_flagWords, readRegister?_name, bind, Except.bind]

theorem readOperand_immediate {line : SourceLine} {value : Int64}
    (wordsEq : words (Operand.text blockName opcode position (.immediate value)).toList =
      [(Operand.text blockName opcode position (.immediate value)).toList]) :
    readOperand labels line (Operand.text blockName opcode position (.immediate value)).toList =
      .ok (.immediate value) := by
  rw [Operand.text] at wordsEq ⊢
  split at wordsEq
  next condition known =>
    have codeEq : condition.code = value := by
      split at known
      · rw [Condition.ofCode?] at known
        simpa using List.find?_some known
      · contradiction
    rw [readOperand_of_word wordsEq (readRegister?_mnemonic line condition),
      readPlainOperand_condition, codeEq]
  next =>
    rw [readOperand_of_word wordsEq (readRegister?_of_startsNumber (startsNumber_repr _)),
      readPlainOperand_number]

/-- An operand that does not stand to the left of the equals sign is read back. -/
theorem readOperand_text (names : Names labels blockName)
    (writable : IsWritable labels.length operand) (line : SourceLine)
    (notLeading : Instr.isLeading operand = false) :
    readOperand labels line (operand.text blockName opcode position).toList =
      .ok (asWritten operand) := by
  have wordsEq := words_text_operand opcode position names writable
  cases operand with
  | register reg flags =>
      rw [readOperand_register wordsEq, asWritten]
      obtain ⟨isDef, isImplicit, isKilled, isDead⟩ := flags
      cases isDef <;> cases isImplicit <;>
        simp_all [Instr.isLeading, Operand.isDef, Operand.isImplicit]
  | immediate value => exact readOperand_immediate opcode position wordsEq
  | symbol name =>
      change words _ = [_] at wordsEq
      rw [toList_text_symbol] at wordsEq ⊢
      rw [readOperand_of_mem wordsEq (by simp) '@' (by simp) (by decide)]
      exact readPlainOperand_symbol labels line name
  | block target =>
      change words _ = [_] at wordsEq
      rw [toList_text_block] at wordsEq ⊢
      rw [readOperand_of_mem wordsEq (by simp) '^' (by simp) (by decide)]
      exact readPlainOperand_block (names.found target writable) names.distinct
  | frameIndex index =>
      change words _ = [_] at wordsEq
      rw [toList_text_frameIndex] at wordsEq ⊢
      rw [readOperand_of_mem wordsEq (by simp) '#' (by simp) (by decide)]
      exact readPlainOperand_frameIndex labels line index

/-- An operand to the left of the equals sign is read back. -/
theorem readDefinition_text (names : Names labels blockName)
    (writable : IsWritable labels.length operand) (line : SourceLine)
    (leading : Instr.isLeading operand = true) :
    readDefinition labels line (operand.text blockName opcode position).toList =
      .ok (asWritten operand) := by
  have wordsEq := words_text_operand opcode position names writable
  cases operand with
  | register reg flags =>
      rw [readDefinition, readOperand_register wordsEq, asWritten]
      obtain ⟨isDef, isImplicit, isKilled, isDead⟩ := flags
      cases isDef <;> cases isImplicit <;>
        simp_all [Instr.isLeading, Operand.isDef, Operand.isImplicit, bind, Except.bind]
  | _ => contradiction

end

end MachineCode.Text
