import MachineCode.Proofs.Text.Directive

/-!
# Functions are read back

The lines of a printed function are its header, its directives, its blocks and the closing brace.
None of the lines between is taken for another kind of line, so the reader finds the parts again,
and with them the function.
-/

namespace MachineCode.Text

/-- A function whose names, and those of its blocks, have a written form. -/
structure IsNamed (function : Function) : Prop where
  name : IsWord function.name.toList
  noComment : ';' ∉ function.name.toList
  label_ne_nil : ∀ block ∈ function.blocks, block.name.toList ≠ []
  isLabel : ∀ block ∈ function.blocks, ∀ char ∈ block.name.toList, isLabelChar char = true
  distinct : (function.blocks.map Block.name).Nodup

/-- A function that has a written form. -/
structure IsWritableFunction (function : Function) : Prop extends IsNamed function where
  instrs : ∀ block ∈ function.blocks, ∀ instr ∈ block.instrs,
    IsWritableInstr function.blocks.length instr

/-- What the written form of a block says. -/
def blockAsWritten (block : Block) : Block :=
  { name := block.name, instrs := block.instrs.map instrAsWritten }

/-- What the written form of a function says. -/
def functionAsWritten (function : Function) : Function :=
  { name := function.name
    blocks := function.blocks.map blockAsWritten
    frame := { function.frame with framePointer? := none }
    calleeSaved := function.calleeSaved }

/-! ## The contents of the lines -/

def headerText (name : List Char) : List Char :=
  "func @".toList ++ name ++ " \x7b".toList

theorem headerText_eq (name : List Char) :
    headerText name = "func @".toList ++ name ++ " \x7b".toList :=
  rfl

def blockTexts (blockName : BlockId → String) (block : Block) : List (List Char) :=
  (block.name.toList ++ [':']) :: block.instrs.map fun instr => (instr.text blockName).toList

def bodyTexts (function : Function) : List (List Char) :=
  (directiveWords function).map ([' '].intercalate ·) ++
    function.blocks.flatMap (blockTexts function.blockName)

def functionTexts (function : Function) : List (List Char) :=
  headerText function.name.toList :: (bodyTexts function ++ [['\x7d']])

def labelsOf (function : Function) : List (List Char) :=
  function.blocks.map fun block => block.name.toList

theorem IsNamed.names {function : Function} (named : IsNamed function) :
    Names (labelsOf function) function.blockName where
  found id bound := by
    rw [labelsOf, List.length_map] at bound
    rw [labelsOf, List.getElem?_map, List.getElem?_eq_getElem bound, Function.blockName,
      Function.block?, List.getElem?_eq_getElem bound]
    rfl
  distinct := by
    have distinct := named.distinct.map fun _ _ => String.toList_injective
    rwa [List.map_map] at distinct
  isLabel label member := by
    obtain ⟨block, isBlock, rfl⟩ := List.mem_map.mp member
    exact named.isLabel block isBlock

theorem IsWritableFunction.instr {function : Function} (writable : IsWritableFunction function)
    {block : Block} {instr : Instr} (isBlock : block ∈ function.blocks)
    (isInstr : instr ∈ block.instrs) : IsWritableInstr (labelsOf function).length instr := by
  rw [labelsOf, List.length_map]
  exact writable.instrs block isBlock instr isInstr

theorem contents_header {name : List Char} (isWord : IsWord name) (noComment : ';' ∉ name) :
    contents (headerText name) = [headerText name] := by
  have trimmed : IsTrimmed (headerText name) := by
    constructor
    · intro char isHead
      cases isHead
      decide
    · intro char isLast
      rw [headerText_eq, List.getLast?_append] at isLast
      cases isLast
      decide
  have notMem {char : Char} (noName : char ∉ name) (noMark : char ∉ "func @ \x7b".toList) :
      char ∉ headerText name := by
    simp_all [headerText_eq]
  have noBreak : '\n' ∉ name := fun member => absurd (isWord.noSpace '\n' member) (by decide)
  exact contents_line [] (by simp) (by simp) trimmed
    (notMem noBreak (by decide)) (notMem noComment (by decide))

theorem contents_directive {parts : List (List Char)} (nonempty : parts ≠ [])
    (isWord : ∀ part ∈ parts, IsDirectiveWord part) :
    contents (' ' :: ' ' :: [' '].intercalate parts) = [[' '].intercalate parts] := by
  apply contents_line [' ', ' '] (by simp)
  · exact intercalate_ne_nil nonempty (fun part isPart => (isWord part isPart).nonempty) [' ']
  · exact .intercalate (fun part isPart => (isWord part isPart).isWord.isTrimmed)
      (fun part isPart => (isWord part isPart).nonempty)
  · exact not_mem_directive isWord (by decide) (by decide)
  · exact not_mem_directive isWord (by decide) (by decide)

theorem isTrimmed_label {name : List Char} (isLabel : ∀ char ∈ name, isLabelChar char = true) :
    IsTrimmed (name ++ [':']) := by
  apply IsTrimmed.of_forall
  intro char member
  rcases List.mem_append.mp member with inName | isColon
  · exact isSpace_of_isWordChar (isWordChar_of_isPlainChar
      (isPlainChar_of_isLabelChar (isLabel char inName)))
  · cases List.mem_singleton.mp isColon
    decide

theorem not_mem_label {name : List Char} {char : Char}
    (isLabel : ∀ char ∈ name, isLabelChar char = true) (noLabel : isLabelChar char = false)
    (noColon : char ≠ ':') : char ∉ name ++ [':'] := by
  intro member
  rcases List.mem_append.mp member with inName | isColon
  · cases noLabel.symm.trans (isLabel char inName)
  · exact noColon (List.mem_singleton.mp isColon)

theorem newline_not_mem_registerList (registers : List Register) :
    '\n' ∉ (Function.registerList registers).toList := by
  rw [toList_registerList, List.mem_flatMap]
  rintro ⟨register, -, member⟩
  rcases List.mem_cons.mp member with isBlank | inName
  · contradiction
  · exact absurd ((isRegisterName_name register).chars '\n' inName) (by decide)

/-- The registers that a block receives are listed in a comment. -/
theorem contents_label {name : List Char} (isLabel : ∀ char ∈ name, isLabelChar char = true)
    (registers : List Register) :
    contents (name ++ [':'] ++ (if registers.isEmpty then ""
      else "    ; live-ins:" ++ Function.registerList registers).toList) =
      [name ++ [':']] := by
  have noBreak : '\n' ∉ name ++ [':'] :=
    not_mem_label isLabel (isLabelChar_eq (by decide) (by decide)) (by decide)
  have noComment : ';' ∉ name ++ [':'] :=
    not_mem_label isLabel (isLabelChar_eq (by decide) (by decide)) (by decide)
  split
  next =>
    rw [String.toList_empty, List.append_nil]
    exact contents_line [] (by simp) (by simp) (isTrimmed_label isLabel) noBreak noComment
  next =>
    rw [String.toList_append]
    have commentNoBreak :
        '\n' ∉ " live-ins:".toList ++ (Function.registerList registers).toList := by
      rw [List.mem_append, not_or]
      exact ⟨by decide, newline_not_mem_registerList registers⟩
    exact contents_commented (isTrimmed_label isLabel) (by simp) noBreak noComment "    ".toList _
      (by decide) commentNoBreak

theorem contents_instr {labels : List (List Char)} {blockName : BlockId → String} {instr : Instr}
    (names : Names labels blockName) (writable : IsWritableInstr labels.length instr) :
    contents ("  " ++ instr.text blockName).toList = [(instr.text blockName).toList] := by
  have notMem {char : Char} (noWord : isWordChar char = false) (noMark : char ∉ [',', ' ', '=']) :
      char ∉ (instr.text blockName).toList := by
    intro member
    obtain isMark | word := mem_text_instr names writable member
    · exact noMark isMark
    · cases noWord.symm.trans word
  rw [String.toList_append]
  exact contents_line _ (by decide) (text_instr_ne_nil blockName instr)
    (isTrimmed_text_instr names writable) (notMem (by decide) (by decide))
    (notMem (by decide) (by decide))

/-- The lines of a printed function. -/
theorem contents_print {function : Function} (writable : IsWritableFunction function) :
    contents function.print.toList = functionTexts function := by
  have directives : (function.directiveLines.map String.toList).flatMap contents =
      (directiveWords function).map ([' '].intercalate ·) := by
    rw [map_toList_directiveLines]
    apply flatMap_contents_map
    intro parts member
    obtain ⟨nonempty, isWord⟩ := isDirectiveWord_of_mem_directiveWords member
    exact contents_directive nonempty isWord
  have blocks :
      ((function.blocks.flatMap function.blockLines).map String.toList).flatMap contents =
        function.blocks.flatMap (blockTexts function.blockName) := by
    rw [List.map_flatMap, List.flatMap_assoc]
    apply List.flatMap_congr
    intro block isBlock
    have instrs : ((block.instrs.map fun instr => "  " ++ instr.text function.blockName).map
        String.toList).flatMap contents =
          block.instrs.map fun instr => (instr.text function.blockName).toList := by
      rw [List.map_map]
      apply flatMap_contents_map
      intro instr isInstr
      exact contents_instr writable.names (writable.instr isBlock isInstr)
    rw [Function.blockLines, List.map_cons, List.flatMap_cons, instrs, String.toList_append,
      String.toList_append]
    exact congrArg (· ++ _) (contents_label (writable.isLabel block isBlock) _)
  have header : contents ("func @" ++ function.name ++ " \x7b").toList =
      [headerText function.name.toList] := by
    rw [String.toList_append, String.toList_append]
    exact contents_header writable.name writable.noComment
  have close : contents "\x7d".toList = [['\x7d']] := by decide
  rw [Function.print, String.toList_intercalate, Function.lines]
  change contents (['\n'].intercalate _) = _
  rw [contents_intercalate, List.map_cons, List.flatMap_cons, header, List.map_append,
    List.map_append, List.flatMap_append, List.flatMap_append, directives, blocks,
    List.map_singleton, List.flatMap_singleton, close]
  rfl

/-! ## The kinds of lines -/

theorem headerName?_headerText {name : List Char} (isWord : IsWord name) :
    headerName? (headerText name) = some name := by
  have keyword : "func".toList.isPrefixOf? (headerText name) =
      some (' ' :: '@' :: (name ++ [' ', '\x7b'])) := by
    simp [headerText_eq]
  have trimmed : trimStart (' ' :: '@' :: (name ++ [' ', '\x7b'])) =
      '@' :: (name ++ [' ', '\x7b']) :=
    rfl
  have nameEq : trim (name ++ [' ']) = name :=
    trim_append (List.forall_mem_nil _) (by decide) isWord.isTrimmed
  rw [headerName?, keyword]
  simpa [trimmed, List.getLast?_append, nameEq, isWord.nonempty] using isWord.noSpace

theorem label?_label {name : List Char} (nonempty : name ≠ [])
    (isLabel : ∀ char ∈ name, isLabelChar char = true) : label? (name ++ [':']) = some name := by
  rw [label?, List.getLast?_concat, List.dropLast_concat, if_pos]
  exact ⟨rfl, nonempty, List.all_eq_true.mpr isLabel⟩

theorem label?_directive {parts : List (List Char)}
    (isWord : ∀ part ∈ parts, IsDirectiveWord part) : label? ([' '].intercalate parts) = none := by
  rw [label?, if_neg]
  rintro ⟨lastEq, -⟩
  exact not_mem_directive isWord (by decide) (by decide) (List.mem_of_getLast? lastEq)

/-- Only the first line of a block names one. -/
theorem filterMap_label?_blockTexts (blockName : BlockId → String) {block : Block}
    (nonempty : block.name.toList ≠ [])
    (isLabel : ∀ char ∈ block.name.toList, isLabelChar char = true) :
    (blockTexts blockName block).filterMap label? = [block.name.toList] := by
  rw [blockTexts, List.filterMap_cons_some (label?_label nonempty isLabel), List.filterMap_map]
  rw [List.filterMap_eq_nil_iff.mpr]
  intro instr _
  exact label?_text_instr blockName instr

theorem filterMap_label?_bodyTexts {function : Function}
    (writable : IsWritableFunction function) :
    (bodyTexts function).filterMap label? = labelsOf function := by
  have directives :
      ((directiveWords function).map ([' '].intercalate ·)).filterMap label? = [] := by
    rw [List.filterMap_map, List.filterMap_eq_nil_iff]
    intro parts member
    exact label?_directive (isDirectiveWord_of_mem_directiveWords member).2
  rw [bodyTexts, List.filterMap_append, directives, List.nil_append, List.filterMap_flatMap,
    labelsOf, List.map_eq_flatMap]
  apply List.flatMap_congr
  intro block isBlock
  exact filterMap_label?_blockTexts _ (writable.label_ne_nil block isBlock)
    (writable.isLabel block isBlock)

theorem ne_close_of_mem_bodyTexts {function : Function} {text : List Char}
    (member : text ∈ bodyTexts function) : text ≠ ['\x7d'] := by
  rcases List.mem_append.mp member with isDirective | inBlocks
  · obtain ⟨parts, isParts, rfl⟩ := List.mem_map.mp isDirective
    intro isClose
    have noBrace : '\x7d' ∉ [' '].intercalate parts :=
      not_mem_directive (isDirectiveWord_of_mem_directiveWords isParts).2 (by decide) (by decide)
    exact noBrace (isClose ▸ List.mem_singleton_self _)
  · obtain ⟨block, -, inBlock⟩ := List.mem_flatMap.mp inBlocks
    rcases List.mem_cons.mp inBlock with rfl | isInstr
    · intro isClose
      have lastEq := congrArg List.getLast? isClose
      simp at lastEq
    · obtain ⟨instr, -, rfl⟩ := List.mem_map.mp isInstr
      exact text_instr_ne_brace _ instr

/-! ## Reading lines -/

theorem readLabels_eq_ok {seen : List (List Char)} {lines : List SourceLine}
    (distinct : (seen ++ (lines.map SourceLine.text).filterMap label?).Nodup) :
    readLabels seen lines = .ok (seen ++ (lines.map SourceLine.text).filterMap label?) := by
  induction lines generalizing seen with
  | nil => simp [readLabels]
  | cons line rest ih =>
      rw [readLabels]
      cases found : label? line.text with
      | none =>
          rw [List.map_cons, List.filterMap_cons_none found] at distinct ⊢
          exact ih distinct
      | some name =>
          rw [List.map_cons, List.filterMap_cons_some found] at distinct ⊢
          have fresh : ¬seen.contains name = true := by
            rw [List.contains_iff_mem]
            intro isSeen
            exact List.disjoint_of_nodup_append distinct isSeen (List.mem_cons_self ..)
          rw [List.append_cons] at distinct ⊢
          simp only [fresh, ih distinct]
          rfl

theorem splitAtClose_append {body after : List SourceLine} {close : SourceLine}
    (unclosed : ∀ line ∈ body, line.text ≠ ['\x7d']) (closes : close.text = ['\x7d']) :
    splitAtClose (body ++ close :: after) = some (body, after) := by
  induction body with
  | nil => rw [List.nil_append, splitAtClose, if_pos closes]
  | cons line rest ih =>
      rw [List.forall_mem_cons] at unclosed
      rw [List.cons_append, splitAtClose, if_neg unclosed.1, ih unclosed.2]
      rfl

theorem readBlocks_label {labels : List (List Char)} {line : SourceLine} {rest : List SourceLine}
    {name : List Char} {instrs : List Instr} {blocks : List Block}
    (named : label? line.text = some name) (read : readBlocks labels rest = .ok (instrs, blocks)) :
    readBlocks labels (line :: rest) =
      .ok ([], { name := .ofList name, instrs } :: blocks) := by
  rw [readBlocks, named]
  simp [read, bind, Except.bind]

/-- Instructions are read in front of what follows them. -/
theorem readBlocks_instrs {labels : List (List Char)} {blockName : BlockId → String}
    {instrs others : List Instr} {blocks : List Block} {lines rest : List SourceLine}
    (names : Names labels blockName)
    (writable : ∀ instr ∈ instrs, IsWritableInstr labels.length instr)
    (linesEq : lines.map SourceLine.text = instrs.map fun instr => (instr.text blockName).toList)
    (read : readBlocks labels rest = .ok (others, blocks)) :
    readBlocks labels (lines ++ rest) = .ok (instrs.map instrAsWritten ++ others, blocks) := by
  induction instrs generalizing lines with
  | nil =>
      rw [List.map_eq_nil_iff.mp linesEq]
      exact read
  | cons instr following ih =>
      rw [List.forall_mem_cons] at writable
      obtain ⟨line, behind, rfl, textEq, behindEq⟩ := List.map_eq_cons_iff.mp linesEq
      rw [List.cons_append, readBlocks, textEq, label?_text_instr]
      simp only [readInstr_text names writable.1 textEq, ih writable.2 behindEq, bind, Except.bind]
      rfl

theorem readBlocks_blockTexts {labels : List (List Char)} {blockName : BlockId → String}
    {blocks : List Block} {lines : List SourceLine} (names : Names labels blockName)
    (label_ne_nil : ∀ block ∈ blocks, block.name.toList ≠ [])
    (isLabel : ∀ block ∈ blocks, ∀ char ∈ block.name.toList, isLabelChar char = true)
    (writable : ∀ block ∈ blocks, ∀ instr ∈ block.instrs, IsWritableInstr labels.length instr)
    (linesEq : lines.map SourceLine.text = blocks.flatMap (blockTexts blockName)) :
    readBlocks labels lines = .ok ([], blocks.map blockAsWritten) := by
  induction blocks generalizing lines with
  | nil =>
      rw [List.map_eq_nil_iff.mp linesEq]
      rfl
  | cons block following ih =>
      rw [List.forall_mem_cons] at label_ne_nil isLabel writable
      rw [List.flatMap_cons, blockTexts, List.cons_append] at linesEq
      obtain ⟨line, rest, rfl, textEq, restEq⟩ := List.map_eq_cons_iff.mp linesEq
      obtain ⟨instrLines, behind, rfl, instrsEq, behindEq⟩ := List.map_eq_append_iff.mp restEq
      have readRest := ih label_ne_nil.2 isLabel.2 writable.2 behindEq
      have readInstrs := readBlocks_instrs names writable.1 instrsEq readRest
      have named : label? line.text = some block.name.toList := by
        rw [textEq, label?_label label_ne_nil.1 isLabel.1]
      rw [readBlocks_label named readInstrs, String.ofList_toList, List.append_nil]
      rfl

/-- The first line of the blocks starts one. -/
theorem isLabel_of_mem_head? {blockName : BlockId → String} {blocks : List Block}
    {lines : List SourceLine} (label_ne_nil : ∀ block ∈ blocks, block.name.toList ≠ [])
    (isLabel : ∀ block ∈ blocks, ∀ char ∈ block.name.toList, isLabelChar char = true)
    (linesEq : lines.map SourceLine.text = blocks.flatMap (blockTexts blockName)) :
    ∀ line ∈ lines.head?, line.isLabel = true := by
  cases blocks with
  | nil =>
      rw [List.map_eq_nil_iff.mp linesEq]
      simp
  | cons block following =>
      rw [List.forall_mem_cons] at label_ne_nil isLabel
      obtain ⟨line, rest, rfl, textEq, -⟩ := List.map_eq_cons_iff.mp linesEq
      intro head isHead
      cases isHead
      rw [SourceLine.isLabel, textEq, label?_label label_ne_nil.1 isLabel.1]
      rfl

theorem words_directive {function : Function} {lines : List SourceLine}
    (linesEq : lines.map SourceLine.text = (directiveWords function).map ([' '].intercalate ·)) :
    lines.map (fun line => words line.text) = directiveWords function := by
  have wordsEq := congrArg (List.map words) linesEq
  rw [List.map_map, List.map_map] at wordsEq
  refine wordsEq.trans ((List.map_congr_left fun parts isParts => ?_).trans (List.map_id _))
  have isWord := (isDirectiveWord_of_mem_directiveWords isParts).2
  exact words_intercalate fun part isPart => (isWord part isPart).isWord

/-- The body of a printed function is read back. -/
theorem readBody_eq_ok {function : Function} (writable : IsWritableFunction function)
    {body : List SourceLine} (bodyEq : body.map SourceLine.text = bodyTexts function) :
    readBody function.name.toList body = .ok (functionAsWritten function) := by
  have labels : readLabels [] body = .ok (labelsOf function) := by
    have labelsEq := filterMap_label?_bodyTexts writable
    rw [← bodyEq] at labelsEq
    rw [readLabels_eq_ok (by rw [labelsEq]; exact writable.names.distinct), labelsEq,
      List.nil_append]
  obtain ⟨directives, blocks, rfl, directivesEq, blocksEq⟩ := List.map_eq_append_iff.mp bodyEq
  have noLabel : ∀ line ∈ directives, (!line.isLabel) = true := by
    intro line member
    have isDirective := List.mem_map_of_mem (f := SourceLine.text) member
    rw [directivesEq] at isDirective
    obtain ⟨parts, isParts, partsEq⟩ := List.mem_map.mp isDirective
    rw [SourceLine.isLabel, ← partsEq,
      label?_directive (isDirectiveWord_of_mem_directiveWords isParts).2]
    rfl
  have label := isLabel_of_mem_head? writable.label_ne_nil writable.isLabel blocksEq
  have frontEq : (directives ++ blocks).takeWhile (fun line => !line.isLabel) = directives := by
    rw [List.takeWhile_append_of_pos noLabel]
    cases blocks <;> simp_all
  have backEq : (directives ++ blocks).dropWhile (fun line => !line.isLabel) = blocks := by
    rw [List.dropWhile_append_of_pos noLabel]
    cases blocks <;> simp_all
  have directed := directs_directiveWords function directives (words_directive directivesEq)
  have blocksRead := readBlocks_blockTexts writable.names writable.label_ne_nil writable.isLabel
    (fun block isBlock instr => writable.instr isBlock) blocksEq
  rw [readBody, labels, String.ofList_toList]
  simp only [bind, Except.bind, frontEq, backEq, directed, blocksRead]
  rfl

theorem readFunctions_cons {header : SourceLine} {rest body after : List SourceLine}
    {name : List Char} (named : headerName? header.text = some name)
    (closed : splitAtClose rest = some (body, after)) :
    readFunctions (header :: rest) = (do
      let function ← readBody name body
      let functions ← readFunctions after
      .ok (function :: functions)) := by
  rw [readFunctions, named]
  simp only
  split
  next unclosed => cases closed.symm.trans unclosed
  next found =>
    cases closed.symm.trans found
    rfl

/-- Printed functions are read back. -/
theorem readFunctions_eq_ok {functions : List Function}
    (writable : ∀ function ∈ functions, IsWritableFunction function) {lines : List SourceLine}
    (linesEq : lines.map SourceLine.text = functions.flatMap functionTexts) :
    readFunctions lines = .ok (functions.map functionAsWritten) := by
  induction functions generalizing lines with
  | nil =>
      rw [List.map_eq_nil_iff.mp linesEq, readFunctions]
      rfl
  | cons function following ih =>
      rw [List.forall_mem_cons] at writable
      rw [List.flatMap_cons, functionTexts, List.cons_append, List.append_assoc,
        List.singleton_append] at linesEq
      obtain ⟨header, rest, rfl, headerEq, restEq⟩ := List.map_eq_cons_iff.mp linesEq
      obtain ⟨body, closing, rfl, bodyEq, closingEq⟩ := List.map_eq_append_iff.mp restEq
      obtain ⟨close, after, rfl, closeEq, afterEq⟩ := List.map_eq_cons_iff.mp closingEq
      have named : headerName? header.text = some function.name.toList := by
        rw [headerEq, headerName?_headerText writable.1.name]
      have bodyOpen : ∀ line ∈ body, line.text ≠ ['\x7d'] := by
        intro line member
        have inBody : line.text ∈ bodyTexts function := bodyEq ▸ List.mem_map_of_mem member
        exact ne_close_of_mem_bodyTexts inBody
      rw [readFunctions_cons named (splitAtClose_append bodyOpen closeEq),
        readBody_eq_ok writable.1 bodyEq, ih writable.2 afterEq]
      rfl

/-- Printed functions that have a written form are read back. -/
theorem readModule_print {functions : List Function}
    (writable : ∀ function ∈ functions, IsWritableFunction function) :
    readModule ("\n".intercalate (functions.map Function.print)) =
      .ok (functions.map functionAsWritten) := by
  apply readFunctions_eq_ok writable
  rw [String.toList_intercalate]
  change contents (['\n'].intercalate _) = _
  rw [contents_intercalate, List.map_map, List.flatMap_map]
  apply List.flatMap_congr
  intro function member
  exact contents_print (writable function member)

end MachineCode.Text
