import MachineCode.Proofs.Text.Function

/-!
# Functions that have been read

What the reader returns can be printed: names come out of the text without white space and without
comments, labels are distinct, and a jump names a block of its function. So the printed functions
can be read again, if their instructions can be cut into their operands.
-/

namespace MachineCode.Text

/-! ## Parts of a text -/

theorem mem_of_mem_trim {text : List Char} {char : Char} (member : char ∈ trim text) :
    char ∈ text := by
  have inReverse := (List.dropWhile_suffix _).mem (List.mem_reverse.mp member)
  exact (List.dropWhile_suffix _).mem (List.mem_reverse.mp inReverse)

/-- The parts between separators hold no separator, and nothing that the text does not hold. -/
theorem mem_of_mem_splitOnP {isSeparator : Char → Bool} {text part : List Char} {char : Char}
    (isPart : part ∈ text.splitOnP isSeparator) (member : char ∈ part) :
    char ∈ text ∧ isSeparator char = false := by
  induction text generalizing part with
  | nil => simp_all
  | cons first rest ih =>
      rw [List.splitOnP_cons_eq_if_modifyHead] at isPart
      split at isPart
      next =>
        rcases List.mem_cons.mp isPart with rfl | inRest
        · simp at member
        · exact (ih inRest member).imp_left (List.mem_cons_of_mem first)
      next noSeparator =>
        cases parts : rest.splitOnP isSeparator with
        | nil => simp [parts] at isPart
        | cons head others =>
            rw [parts, List.modifyHead_cons] at isPart
            rw [parts] at ih
            rcases List.mem_cons.mp isPart with rfl | inOthers
            · rcases List.mem_cons.mp member with rfl | inHead
              · exact ⟨List.mem_cons_self .., by simpa using noSeparator⟩
              · exact (ih (List.mem_cons_self ..) inHead).imp_left (List.mem_cons_of_mem first)
            · exact (ih (List.mem_cons_of_mem head inOthers) member).imp_left
                (List.mem_cons_of_mem first)

theorem mem_of_mem_words {text word : List Char} {char : Char} (isWord : word ∈ words text)
    (member : char ∈ word) : char ∈ text ∧ isSpace char = false :=
  mem_of_mem_splitOnP (List.mem_filter.mp isWord).1 member

theorem mem_of_mem_commaFields {text field : List Char} {char : Char}
    (isField : field ∈ commaFields text) (member : char ∈ field) : char ∈ text ∧ char ≠ ',' := by
  obtain ⟨part, isPart, rfl⟩ := List.mem_map.mp isField
  rw [List.splitOn_eq_splitOnP] at isPart
  obtain ⟨inText, noComma⟩ := mem_of_mem_splitOnP isPart (mem_of_mem_trim member)
  exact ⟨inText, beq_eq_false_iff_ne.mp noComma⟩

theorem mem_of_splitFirst {isSeparator : Char → Bool} {text front back : List Char}
    (split : splitFirst isSeparator text = some (front, back)) :
    (∀ char ∈ front, char ∈ text) ∧ ∀ char ∈ back, char ∈ text := by
  rw [splitFirst] at split
  split at split
  next => contradiction
  next separator behind rest =>
    cases split
    have behindSuffix := List.dropWhile_suffix (l := text) fun char => !isSeparator char
    rw [rest] at behindSuffix
    exact ⟨fun char member => (List.takeWhile_sublist _).mem member,
      fun char member => behindSuffix.mem (List.mem_cons_of_mem separator member)⟩

theorem mem_of_splitDefinitions {text rest : List Char} {definitions : Option (List Char)}
    (split : splitDefinitions text = (definitions, rest)) : ∀ char ∈ rest, char ∈ text := by
  intro char member
  rw [splitDefinitions] at split
  split at split
  next cut =>
    cases split
    exact (mem_of_splitFirst cut).2 char (mem_of_mem_trim member)
  next =>
    cases split
    exact member

theorem mem_of_splitOpcode {text name uses : List Char}
    (split : splitOpcode text = (name, uses)) : ∀ char ∈ uses, char ∈ text := by
  intro char member
  rw [splitOpcode] at split
  split at split
  next cut =>
    cases split
    exact (mem_of_splitFirst cut).2 char (mem_of_mem_trim member)
  next =>
    cases split
    contradiction

/-! ## Operands -/

section

variable {labels : List (List Char)} {line : SourceLine}

theorem isWritable_of_readPlainOperand {word : List Char} {operand : Operand}
    (chars : ∀ char ∈ word, isWordChar char = true)
    (read : readPlainOperand labels line word = .ok operand) :
    IsWritable labels.length operand := by
  rw [readPlainOperand.eq_def] at read
  split at read
  next name =>
    cases read
    intro char member
    rw [String.toList_ofList] at member
    exact chars char (List.mem_cons_of_mem '@' member)
  next name =>
    obtain ⟨target, found, rfl⟩ := exists_of_map_eq_ok read
    rw [readBlock] at found
    split at found
    next index =>
      cases found
      exact (List.findIdx?_eq_some_iff_findIdx_eq.mp index).1
    next => contradiction
  next =>
    obtain ⟨index, -, rfl⟩ := exists_of_map_eq_ok read
    trivial
  next =>
    split at read
    next =>
      cases read
      trivial
    next =>
      split at read
      next =>
        obtain ⟨value, -, rfl⟩ := exists_of_map_eq_ok read
        trivial
      next => contradiction

theorem isWritable_of_readOperand {text : List Char} {operand : Operand}
    (noMark : ∀ char ∈ text, char ≠ ',' ∧ char ≠ ';')
    (read : readOperand labels line text = .ok operand) : IsWritable labels.length operand := by
  rw [readOperand] at read
  split at read
  next => contradiction
  next word lastEq =>
    obtain ⟨flags, -, read⟩ := exists_of_bind_eq_ok read
    obtain ⟨reg?, -, read⟩ := exists_of_bind_eq_ok read
    split at read
    next =>
      cases read
      trivial
    next =>
      split at read
      next =>
        apply isWritable_of_readPlainOperand _ read
        intro char member
        obtain ⟨inText, noSpace⟩ := mem_of_mem_words (List.mem_of_getLast? lastEq) member
        obtain ⟨noComma, noComment⟩ := noMark char inText
        simp [isWordChar, noSpace, noComma, noComment]
      next => contradiction

theorem isWritable_of_readDefinition {text : List Char} {operand : Operand}
    (read : readDefinition labels line text = .ok operand) : IsWritable labels.length operand := by
  obtain ⟨operand, -, read⟩ := exists_of_bind_eq_ok read
  split at read
  next =>
    cases read
    trivial
  next => contradiction

theorem isWritable_of_readDefinitions {text? : Option (List Char)} {operands : List Operand}
    (read : readDefinitions labels line text? = .ok operands) :
    ∀ operand ∈ operands, IsWritable labels.length operand := by
  intro operand member
  cases text? with
  | none =>
      cases read
      contradiction
  | some text =>
      obtain ⟨field, -, fieldRead⟩ := exists_of_mem_of_mapM_eq_ok read member
      exact isWritable_of_readDefinition fieldRead

theorem isWritable_of_readUses {text : List Char} {operands : List Operand}
    (noComment : ';' ∉ text) (read : readUses labels line text = .ok operands) :
    ∀ operand ∈ operands, IsWritable labels.length operand := by
  intro operand member
  rw [readUses] at read
  split at read
  next =>
    cases read
    contradiction
  next =>
    obtain ⟨field, isField, fieldRead⟩ := exists_of_mem_of_mapM_eq_ok read member
    apply isWritable_of_readOperand _ fieldRead
    intro char inField
    obtain ⟨inText, noComma⟩ := mem_of_mem_commaFields isField inField
    refine ⟨noComma, ?_⟩
    rintro rfl
    exact noComment inText

/-- The operands of an instruction that has been read have a written form. -/
theorem isWritable_of_readInstr {instr : Instr} (noComment : ';' ∉ line.text)
    (read : readInstr labels line = .ok instr) :
    ∀ operand ∈ instr.operands, IsWritable labels.length operand := by
  rw [readInstr] at read
  rcases definitionsCut : splitDefinitions line.text with ⟨definitions, rest⟩
  rcases opcodeCut : splitOpcode rest with ⟨name, uses⟩
  simp only [definitionsCut, opcodeCut] at read
  split at read
  next => contradiction
  next opcode _ =>
    obtain ⟨written, writtenRead, read⟩ := exists_of_bind_eq_ok read
    obtain ⟨used, usedRead, read⟩ := exists_of_bind_eq_ok read
    cases read
    have usesNoComment : ';' ∉ uses := fun member =>
      noComment (mem_of_splitDefinitions definitionsCut ';'
        (mem_of_splitOpcode opcodeCut ';' member))
    intro operand member
    rcases List.mem_append.mp member with isWritten | isUsed
    · exact isWritable_of_readDefinitions writtenRead operand isWritten
    · exact isWritable_of_readUses usesNoComment usedRead operand isUsed

end

/-! ## Directives -/

/-- A function of which only the frame and the preserved registers are known. -/
structure IsHead (name : String) (function : Function) : Prop where
  nameEq : function.name = name
  framePointer? : function.frame.framePointer? = none
  calleeSavedSize : function.calleeSavedSize = 0

theorem IsHead.of_bind {name : String} {value : Type} {checked : Except ReadError value}
    {change : value → Function} {after : Function}
    (read : (checked >>= fun value => .ok (change value)) = .ok after)
    (head : ∀ value, IsHead name (change value)) : IsHead name after := by
  obtain ⟨value, -, changed⟩ := exists_of_bind_eq_ok read
  cases changed
  exact head value

theorem IsHead.of_readDirective {name : String} {before after : Function} {line : SourceLine}
    (head : IsHead name before) (read : readDirective before line = .ok after) :
    IsHead name after := by
  obtain ⟨nameEq, framePointer?, calleeSavedSize⟩ := head
  rw [readDirective] at read
  split at read
  next => contradiction
  next =>
    split at read
    next => exact .of_bind read fun _ => ⟨nameEq, framePointer?, calleeSavedSize⟩
    next => exact .of_bind read fun _ => ⟨nameEq, framePointer?, calleeSavedSize⟩
    next =>
      cases read
      exact ⟨nameEq, framePointer?, calleeSavedSize⟩
    next =>
      cases read
      exact ⟨nameEq, framePointer?, calleeSavedSize⟩
    next => exact .of_bind read fun _ => ⟨nameEq, framePointer?, calleeSavedSize⟩
    next => exact .of_bind read fun _ => ⟨nameEq, framePointer?, calleeSavedSize⟩
    next => exact .of_bind read fun _ => ⟨nameEq, framePointer?, calleeSavedSize⟩
    next => contradiction

/-! ## Labels and blocks -/

theorem isLabel_of_label? {text name : List Char} (named : label? text = some name) :
    name ≠ [] ∧ ∀ char ∈ name, isLabelChar char = true := by
  rw [label?] at named
  split at named
  next conditions =>
    cases named
    exact ⟨conditions.2.1, List.all_eq_true.mp conditions.2.2⟩
  next => contradiction

theorem of_readLabels_eq_ok {seen labels : List (List Char)} {lines : List SourceLine}
    (distinct : seen.Nodup) (read : readLabels seen lines = .ok labels) :
    labels = seen ++ (lines.map SourceLine.text).filterMap label? ∧ labels.Nodup := by
  induction lines generalizing seen with
  | nil =>
      cases read
      exact ⟨(List.append_nil _).symm, distinct⟩
  | cons line rest ih =>
      rw [readLabels] at read
      rw [List.map_cons]
      split at read
      next noLabel =>
        rw [List.filterMap_cons_none noLabel]
        exact ih distinct read
      next name named =>
        split at read
        next => contradiction
        next fresh =>
          rw [List.filterMap_cons_some named, List.append_cons]
          rw [List.contains_iff_mem] at fresh
          have freshDistinct : (seen ++ [name]).Nodup := by
            rw [List.nodup_append]
            refine ⟨distinct, List.nodup_singleton name, ?_⟩
            rintro other isSeen _ isName rfl
            exact fresh (List.mem_singleton.mp isName ▸ isSeen)
          exact ih freshDistinct read

/-- What is known of blocks that have been read, and of the instructions in front of them. -/
structure AreBlocks (labels : List (List Char)) (lines : List SourceLine) (instrs : List Instr)
    (blocks : List Block) : Prop where
  names : blocks.map (fun block => block.name.toList) =
    (lines.map SourceLine.text).filterMap label?
  liveIns : ∀ block ∈ blocks, block.liveIns = .empty
  leading : ∀ instr ∈ instrs, ∀ operand ∈ instr.operands, IsWritable labels.length operand
  operands : ∀ block ∈ blocks, ∀ instr ∈ block.instrs, ∀ operand ∈ instr.operands,
    IsWritable labels.length operand

theorem areBlocks_of_readBlocks {labels : List (List Char)} {lines : List SourceLine}
    {instrs : List Instr} {blocks : List Block} (noComment : ∀ line ∈ lines, ';' ∉ line.text)
    (read : readBlocks labels lines = .ok (instrs, blocks)) :
    AreBlocks labels lines instrs blocks := by
  induction lines generalizing instrs blocks with
  | nil =>
      cases read
      exact ⟨rfl, by simp, by simp, by simp⟩
  | cons line rest ih =>
      rw [List.forall_mem_cons] at noComment
      rw [readBlocks] at read
      split at read
      next name named =>
        obtain ⟨⟨inner, others⟩, restRead, read⟩ := exists_of_bind_eq_ok read
        cases read
        obtain ⟨names, liveIns, leading, operands⟩ := ih noComment.2 restRead
        refine ⟨?_, List.forall_mem_cons.mpr ⟨rfl, liveIns⟩, by simp,
          List.forall_mem_cons.mpr ⟨leading, operands⟩⟩
        rw [List.map_cons, List.map_cons, List.filterMap_cons_some named, names,
          String.toList_ofList]
      next noLabel =>
        obtain ⟨instr, instrRead, read⟩ := exists_of_bind_eq_ok read
        obtain ⟨⟨inner, others⟩, restRead, read⟩ := exists_of_bind_eq_ok read
        cases read
        obtain ⟨names, liveIns, leading, operands⟩ := ih noComment.2 restRead
        refine ⟨?_, liveIns, List.forall_mem_cons.mpr
          ⟨isWritable_of_readInstr noComment.1 instrRead, leading⟩, operands⟩
        rw [List.map_cons, List.filterMap_cons_none noLabel, names]

/-! ## Functions -/

/-- What is known of a function that has been read. -/
structure IsReadable (function : Function) : Prop extends IsNamed function where
  operands : ∀ block ∈ function.blocks, ∀ instr ∈ block.instrs, ∀ operand ∈ instr.operands,
    IsWritable function.blocks.length operand
  liveIns : ∀ block ∈ function.blocks, block.liveIns = .empty
  framePointer? : function.frame.framePointer? = none
  calleeSavedSize : function.calleeSavedSize = 0

/-- No line in front of the first block names one. -/
theorem filterMap_label?_dropWhile (body : List SourceLine) :
    ((body.dropWhile fun line => !line.isLabel).map SourceLine.text).filterMap label? =
      (body.map SourceLine.text).filterMap label? := by
  have front : ((body.takeWhile fun line => !line.isLabel).map SourceLine.text).filterMap label? =
      [] := by
    rw [List.filterMap_map, List.filterMap_eq_nil_iff]
    intro line member
    simpa [SourceLine.isLabel] using List.mem_takeWhile_imp member
  conv_rhs => rw [← List.takeWhile_append_dropWhile (p := fun line => !line.isLabel) (l := body)]
  rw [List.map_append, List.filterMap_append, front, List.nil_append]

theorem isReadable_of_readBody {name : List Char} {body : List SourceLine} {function : Function}
    (isWord : IsWord name) (nameNoComment : ';' ∉ name)
    (noComment : ∀ line ∈ body, ';' ∉ line.text) (read : readBody name body = .ok function) :
    IsReadable function := by
  rw [readBody] at read
  obtain ⟨labels, labelsRead, read⟩ := exists_of_bind_eq_ok read
  obtain ⟨head, headRead, read⟩ := exists_of_bind_eq_ok read
  obtain ⟨⟨instrs, blocks⟩, blocksRead, read⟩ := exists_of_bind_eq_ok read
  cases read
  obtain ⟨labelsEq, distinct⟩ := of_readLabels_eq_ok List.nodup_nil labelsRead
  have isHead : IsHead (.ofList name) head :=
    invariant_of_foldlM_eq_ok (fun _ _ _ => IsHead.of_readDirective) ⟨rfl, rfl, rfl⟩ headRead
  obtain ⟨names, liveIns, -, operands⟩ := areBlocks_of_readBlocks
    (fun line member => noComment line ((List.dropWhile_suffix _).mem member)) blocksRead
  rw [filterMap_label?_dropWhile, ← List.nil_append (List.filterMap _ _), ← labelsEq] at names
  have label {block : Block} (isBlock : block ∈ blocks) :
      block.name.toList ≠ [] ∧ ∀ char ∈ block.name.toList, isLabelChar char = true := by
    have isName : block.name.toList ∈ labels := names ▸ List.mem_map_of_mem isBlock
    rw [labelsEq, List.nil_append, List.mem_filterMap] at isName
    obtain ⟨text, -, named⟩ := isName
    exact isLabel_of_label? named
  have mapped : ((blocks.map Block.name).map String.toList).Nodup := by
    rw [← names] at distinct
    rw [List.map_map]
    exact distinct
  have nameEq : head.name.toList = name := by
    rw [isHead.nameEq, String.toList_ofList]
  have lengthEq : labels.length = blocks.length := by
    rw [← names, List.length_map]
  exact
    { name := nameEq ▸ isWord
      noComment := nameEq ▸ nameNoComment
      label_ne_nil := fun block isBlock => (label isBlock).1
      isLabel := fun block isBlock => (label isBlock).2
      distinct := mapped.of_map _
      operands := lengthEq ▸ operands
      liveIns := liveIns
      framePointer? := isHead.framePointer?
      calleeSavedSize := isHead.calleeSavedSize }

theorem mem_of_splitAtClose {lines body after : List SourceLine}
    (split : splitAtClose lines = some (body, after)) :
    (∀ line ∈ body, line ∈ lines) ∧ ∀ line ∈ after, line ∈ lines := by
  induction lines generalizing body after with
  | nil => contradiction
  | cons line rest ih =>
      rw [splitAtClose] at split
      split at split
      next =>
        cases split
        exact ⟨by simp, fun other => List.mem_cons_of_mem line⟩
      next =>
        obtain ⟨⟨inner, following⟩, found, equal⟩ := Option.map_eq_some_iff.mp split
        cases equal
        obtain ⟨inBody, inAfter⟩ := ih found
        refine ⟨List.forall_mem_cons.mpr ⟨List.mem_cons_self .., ?_⟩, ?_⟩
        · exact fun other member => List.mem_cons_of_mem line (inBody other member)
        · exact fun other member => List.mem_cons_of_mem line (inAfter other member)

theorem isWord_of_headerName? {text name : List Char} (named : headerName? text = some name) :
    IsWord name ∧ ∀ char ∈ name, char ∈ text := by
  rw [headerName?] at named
  obtain ⟨rest, isPrefix, named⟩ := Option.bind_eq_some_iff.mp named
  have inRest (char : Char) (member : char ∈ rest) : char ∈ text := by
    rw [← List.isPrefixOf?_eq_some_iff_append_eq.mp isPrefix]
    exact List.mem_append_right _ member
  split at named
  next marked markedEq =>
    have inMarked (char : Char) (member : char ∈ marked) : char ∈ rest := by
      apply (List.dropWhile_suffix isSpace).mem
      rw [← trimStart, markedEq]
      exact List.mem_cons_of_mem '@' member
    simp only at named
    split at named
    next conditions =>
      cases named
      refine ⟨⟨conditions.2.1, by simpa using conditions.2.2⟩, fun char member => ?_⟩
      exact inRest char (inMarked char ((List.dropLast_sublist _).mem (mem_of_mem_trim member)))
    next => contradiction
  next => contradiction

theorem isReadable_of_readFunctions {lines : List SourceLine} {functions : List Function}
    (noComment : ∀ line ∈ lines, ';' ∉ line.text) (read : readFunctions lines = .ok functions) :
    ∀ function ∈ functions, IsReadable function := by
  fun_induction readFunctions lines generalizing functions with
  | case1 =>
      cases read
      simp
  | case2 => contradiction
  | case3 => contradiction
  | case4 header rest name named body after split shorter ih =>
      rw [List.forall_mem_cons] at noComment
      obtain ⟨inBody, inAfter⟩ := mem_of_splitAtClose split
      obtain ⟨isWord, inHeader⟩ := isWord_of_headerName? named
      obtain ⟨function, functionRead, read⟩ := exists_of_bind_eq_ok read
      obtain ⟨others, othersRead, read⟩ := exists_of_bind_eq_ok read
      cases read
      refine List.forall_mem_cons.mpr ⟨?_, ?_⟩
      · exact isReadable_of_readBody isWord (fun member => noComment.1 (inHeader ';' member))
          (fun line member => noComment.2 line (inBody line member)) functionRead
      · exact ih (fun line member => noComment.2 line (inAfter line member)) othersRead

theorem noComment_of_mem_sourceLines {text : List Char} {line : SourceLine}
    (member : line ∈ sourceLines text) : ';' ∉ line.text := by
  have inContents : line.text ∈ contents text := List.mem_map_of_mem member
  rw [contents, sourceLines, map_text_numberLines, List.mem_filter] at inContents
  obtain ⟨raw, -, contentEq⟩ := List.mem_map.mp inContents.1
  rw [← contentEq]
  intro comment
  have passes := List.mem_takeWhile_imp (mem_of_mem_trim comment)
  contradiction

/-- Functions that have been read can be printed, if their instructions can be cut into their
operands. -/
theorem IsReadable.isWritableFunction {function : Function} (readable : IsReadable function)
    (separable : ∀ block ∈ function.blocks, ∀ instr ∈ block.instrs, IsSeparable instr) :
    IsWritableFunction function where
  toIsNamed := readable.toIsNamed
  instrs block isBlock instr isInstr :=
    { toIsSeparable := separable block isBlock instr isInstr
      operands := readable.operands block isBlock instr isInstr }

/-- A function without the mark of a dead value on registers that are not written. -/
def withoutDeadUses (function : Function) : Function :=
  { function with
    blocks := function.blocks.map fun block =>
      { block with instrs := block.instrs.map instrAsWritten } }

theorem IsReadable.functionAsWritten_eq {function : Function} (readable : IsReadable function) :
    functionAsWritten function = withoutDeadUses function := by
  have blocksEq : function.blocks.map blockAsWritten = (withoutDeadUses function).blocks := by
    apply List.map_congr_left
    intro block isBlock
    rw [blockAsWritten, readable.liveIns block isBlock]
  have frameEq : { function.frame with framePointer? := none } = function.frame := by
    rw [← readable.framePointer?]
  rw [functionAsWritten, blocksEq, frameEq, withoutDeadUses, readable.calleeSavedSize]

/-- Whatever has been read can be printed and read again, if its instructions can be cut into
their operands: only the marks of dead values on registers that are not written are lost. -/
theorem readModule_print_readModule {text : String} {functions : List Function}
    (read : readModule text = .ok functions)
    (separable : ∀ function ∈ functions, ∀ block ∈ function.blocks, ∀ instr ∈ block.instrs,
      IsSeparable instr) :
    readModule ("\n".intercalate (functions.map Function.print)) =
      .ok (functions.map withoutDeadUses) := by
  have readable : ∀ function ∈ functions, IsReadable function :=
    isReadable_of_readFunctions (fun _ => noComment_of_mem_sourceLines) read
  rw [readModule_print fun function member =>
    (readable function member).isWritableFunction (separable function member)]
  exact congrArg _ (List.map_congr_left fun function member =>
    (readable function member).functionAsWritten_eq)

/-- A text that is not spelled as the printer does it. -/
def looseText : String :=
  "func  @f\x7b ;\n stack_size 0x10\nb:\n killed fp ,implicit sr=JAL @a=b\n JMP ^b,dead sr\n\x7d"

/-- What the text says. -/
def looseFunctions : List Function :=
  [{ name := "f"
     blocks := [
      { name := "b"
        instrs := [
          { opcode := .jal
            operands := [.register (.physical .fp) { isDef := true, isKilled := true },
              .register (.physical .sr) { isDef := true, isImplicit := true }, .symbol "a=b"] },
          { opcode := .jmp
            operands := [.block 0, .register (.physical .sr) { isDead := true }] }] }]
     frame := { stackSize := 16 } }]

theorem readModule_print_readModule_loose :
    readModule looseText = .ok looseFunctions ∧
      (∀ function ∈ looseFunctions, ∀ block ∈ function.blocks, ∀ instr ∈ block.instrs,
        IsSeparable instr) ∧
      readModule ("\n".intercalate (looseFunctions.map Function.print)) =
        .ok (looseFunctions.map withoutDeadUses) := by
  have read : readModule looseText = .ok looseFunctions := by decide +kernel
  have separable : ∀ function ∈ looseFunctions, ∀ block ∈ function.blocks,
      ∀ instr ∈ block.instrs, IsSeparable instr := by
    decide +kernel
  exact ⟨read, separable, readModule_print_readModule read separable⟩

/-- A return that is marked as leaving a dead value in a register that it only reads. -/
def deadUse : Function where
  name := "f"
  blocks := [
    { name := "a"
      instrs := [{ opcode := .ret, operands := [.register (.physical .sr) { isDead := true }] }] }]

/-- The mark of a dead value can be read on any register, but is printed only on those that are
written. -/
theorem readModule_print_deadUse :
    readModule "func @f \x7b\na:\n  RET dead sr\n\x7d" = .ok [deadUse] ∧
      readModule ("\n".intercalate ([deadUse].map Function.print)) ≠ .ok [deadUse] := by
  decide +kernel

end MachineCode.Text
