import MachineCode.Proofs.Text.Function

/-!
# Texts one below another

The reader keeps nothing from one function to the next. A text behind another one, on lines of its
own, is read as it is read alone: its functions come behind those of the first text, and an error
is the same error, on a line that stands as much further down as the first text is long.

Lines that are moved down give the same values and errors that are moved down with them. This is
shown for each part of the reader, so it holds for whole functions. The rest is a matter of where
the first text ends.
-/

namespace MachineCode.Text

/-- The same error, on a line that stands further down. -/
def ReadError.movedDown (distance : Nat) (error : ReadError) : ReadError :=
  { error with line := error.line + distance }

namespace SourceLine

def movedDown (distance : Nat) (line : SourceLine) : SourceLine :=
  { line with number := line.number + distance }

variable (distance : Nat) (line : SourceLine)

@[simp]
theorem text_movedDown : (line.movedDown distance).text = line.text :=
  rfl

end SourceLine

/-! ## Lines that are moved down -/

section

variable {distance : Nat} {labels : List (List Char)} {line : SourceLine}

theorem readInteger_movedDown (text : List Char) :
    readInteger (line.movedDown distance) text =
      (readInteger line text).mapError (.movedDown distance) := by
  rw [readInteger, readInteger]
  cases readInteger? text <;> rfl

theorem readFlag_movedDown (flags : RegisterFlags) (word : List Char) :
    readFlag (line.movedDown distance) flags word =
      (readFlag line flags word).mapError (.movedDown distance) := by
  rw [readFlag, readFlag]
  split <;> rfl

theorem readRegister?_movedDown (word : List Char) :
    readRegister? (line.movedDown distance) word =
      (readRegister? line word).mapError (.movedDown distance) := by
  rw [readRegister?.eq_def, readRegister?.eq_def]
  split
  next digits => cases readUnsigned? 10 UInt32.size digits <;> rfl
  next => rfl

theorem readBlock_movedDown (name : List Char) :
    readBlock labels (line.movedDown distance) name =
      (readBlock labels line name).mapError (.movedDown distance) := by
  rw [readBlock, readBlock]
  cases labels.findIdx? (· == name) <;> rfl

theorem readFrameIndex_movedDown (word digits : List Char) :
    readFrameIndex (line.movedDown distance) word digits =
      (readFrameIndex line word digits).mapError (.movedDown distance) := by
  simp only [readFrameIndex, readInteger_movedDown, mapError_bind]
  congr
  funext value
  split <;> rfl

theorem readPlainOperand_movedDown (word : List Char) :
    readPlainOperand labels (line.movedDown distance) word =
      (readPlainOperand labels line word).mapError (.movedDown distance) := by
  rw [readPlainOperand.eq_def, readPlainOperand.eq_def]
  split
  next => rfl
  next name => rw [readBlock_movedDown, mapError_map]
  next digits => rw [readFrameIndex_movedDown, mapError_map]
  next =>
    split
    next => rfl
    next =>
      split
      next => rw [readInteger_movedDown, mapError_map]
      next => rfl

theorem readOperand_movedDown (text : List Char) :
    readOperand labels (line.movedDown distance) text =
      (readOperand labels line text).mapError (.movedDown distance) := by
  rw [readOperand, readOperand]
  split
  next => rfl
  next word _ =>
    simp only [foldlM_eq_mapError _ _ readFlag_movedDown, readRegister?_movedDown,
      readPlainOperand_movedDown, mapError_bind]
    congr
    funext flags
    congr
    funext reg?
    cases reg? with
    | some reg => rfl
    | none =>
        dsimp only
        split <;> rfl

theorem readDefinition_movedDown (text : List Char) :
    readDefinition labels (line.movedDown distance) text =
      (readDefinition labels line text).mapError (.movedDown distance) := by
  simp only [readDefinition, readOperand_movedDown, mapError_bind]
  congr
  funext operand
  cases operand <;> rfl

theorem readDefinitions_movedDown (text? : Option (List Char)) :
    readDefinitions labels (line.movedDown distance) text? =
      (readDefinitions labels line text?).mapError (.movedDown distance) := by
  cases text? with
  | none => rfl
  | some text =>
      exact mapM_eq_mapError _ readDefinition_movedDown

theorem readUses_movedDown (text : List Char) :
    readUses labels (line.movedDown distance) text =
      (readUses labels line text).mapError (.movedDown distance) := by
  rw [readUses, readUses]
  split
  next => rfl
  next =>
    exact mapM_eq_mapError _ readOperand_movedDown

theorem readInstr_movedDown :
    readInstr labels (line.movedDown distance) =
      (readInstr labels line).mapError (.movedDown distance) := by
  simp only [readInstr, SourceLine.text_movedDown]
  split
  next => rfl
  next opcode _ =>
    simp only [readDefinitions_movedDown, readUses_movedDown, mapError_bind]
    rfl

theorem readObjectField_movedDown (fields : ObjectFields) (word : List Char) :
    readObjectField (line.movedDown distance) fields word =
      (readObjectField line fields word).mapError (.movedDown distance) := by
  rw [readObjectField, readObjectField]
  split
  next key value _ =>
    split
    next =>
      rw [readInteger_movedDown, mapError_bind]
      rfl
    next =>
      rw [readInteger_movedDown, mapError_bind]
      rfl
    next => rfl
  next => rfl

theorem readObject_movedDown (arguments : List (List Char)) :
    readObject (line.movedDown distance) arguments =
      (readObject line arguments).mapError (.movedDown distance) := by
  simp only [readObject, foldlM_eq_mapError _ _ readObjectField_movedDown, mapError_bind]
  congr
  funext fields
  cases fields.size? <;> cases fields.offset? <;> rfl

theorem readDirectiveInteger_movedDown (expectation : Expectation)
    (arguments : List (List Char)) :
    readDirectiveInteger (line.movedDown distance) expectation arguments =
      (readDirectiveInteger line expectation arguments).mapError (.movedDown distance) := by
  cases arguments with
  | nil => rfl
  | cons word _ => exact readInteger_movedDown word

theorem readPreserved_movedDown (word : List Char) :
    readPreserved (line.movedDown distance) word =
      (readPreserved line word).mapError (.movedDown distance) := by
  rw [readPreserved, readPreserved]
  split <;> rfl

theorem readDirective_movedDown (function : Function) (line : SourceLine) :
    readDirective function (line.movedDown distance) =
      (readDirective function line).mapError (.movedDown distance) := by
  rw [readDirective, readDirective, SourceLine.text_movedDown]
  split
  next => rfl
  next keyword arguments _ =>
    dsimp only
    split
    next =>
      rw [readDirectiveInteger_movedDown, mapError_bind]
      rfl
    next =>
      rw [readDirectiveInteger_movedDown, mapError_bind]
      rfl
    next => rfl
    next => rfl
    next =>
      rw [readObject_movedDown, mapError_bind]
      rfl
    next =>
      rw [readObject_movedDown, mapError_bind]
      rfl
    next =>
      rw [mapM_eq_mapError _ readPreserved_movedDown, mapError_bind]
      rfl
    next => rfl

theorem readLabels_movedDown (seen : List (List Char)) (lines : List SourceLine) :
    readLabels seen (lines.map (.movedDown distance)) =
      (readLabels seen lines).mapError (.movedDown distance) := by
  induction lines generalizing seen with
  | nil => rfl
  | cons line rest ih =>
      rw [List.map_cons, readLabels, readLabels, SourceLine.text_movedDown]
      split
      next => exact ih seen
      next name _ =>
        split
        next => rfl
        next => exact ih (seen ++ [name])

theorem readBlocks_movedDown (lines : List SourceLine) :
    readBlocks labels (lines.map (.movedDown distance)) =
      (readBlocks labels lines).mapError (.movedDown distance) := by
  induction lines with
  | nil => rfl
  | cons line rest ih =>
      rw [List.map_cons, readBlocks, readBlocks, SourceLine.text_movedDown]
      split
      next =>
        rw [ih, mapError_bind]
        rfl
      next =>
        simp only [readInstr_movedDown, ih, mapError_bind]
        rfl

theorem readBody_movedDown (name : List Char) (body : List SourceLine) :
    readBody name (body.map (.movedDown distance)) =
      (readBody name body).mapError (.movedDown distance) := by
  have sameLabels : ((fun line => !line.isLabel) ∘ SourceLine.movedDown distance) =
      fun line => !line.isLabel := rfl
  simp only [readBody, readLabels_movedDown, List.takeWhile_map, List.dropWhile_map, sameLabels,
    List.foldlM_map, foldlM_eq_mapError _ _ readDirective_movedDown, readBlocks_movedDown,
    mapError_bind]
  rfl

theorem splitAtClose_movedDown (lines : List SourceLine) :
    splitAtClose (lines.map (.movedDown distance)) =
      (splitAtClose lines).map fun (body, after) =>
        (body.map (.movedDown distance), after.map (.movedDown distance)) := by
  induction lines with
  | nil => rfl
  | cons line rest ih =>
      rw [List.map_cons, splitAtClose, splitAtClose, SourceLine.text_movedDown]
      split
      next => rfl
      next =>
        rw [ih, Option.map_map, Option.map_map]
        rfl

end

theorem readFunctions_of_headerName?_eq_none {header : SourceLine} {rest : List SourceLine}
    (unnamed : headerName? header.text = none) :
    readFunctions (header :: rest) = .error (header.missing .functionHeader) := by
  rw [readFunctions, unnamed]

theorem readFunctions_of_splitAtClose_eq_none {header : SourceLine} {rest : List SourceLine}
    {name : List Char} (named : headerName? header.text = some name)
    (unclosed : splitAtClose rest = none) :
    readFunctions (header :: rest) = .error (header.error (.unterminated (.ofList name))) := by
  rw [readFunctions, named]
  simp only
  split
  next => rfl
  next closed => cases unclosed.symm.trans closed

/-- Functions further down are the same functions, and an error shows as much further down. -/
theorem readFunctions_movedDown (distance : Nat) (lines : List SourceLine) :
    readFunctions (lines.map (.movedDown distance)) =
      (readFunctions lines).mapError (.movedDown distance) := by
  fun_induction readFunctions lines with
  | case1 =>
      rw [List.map_nil, readFunctions]
      rfl
  | case2 header rest unnamed =>
      rw [← header.text_movedDown distance] at unnamed
      exact readFunctions_of_headerName?_eq_none unnamed
  | case3 header rest name named unclosed =>
      rw [← header.text_movedDown distance] at named
      have unclosedBelow : splitAtClose (rest.map (.movedDown distance)) = none := by
        rw [splitAtClose_movedDown, unclosed]
        rfl
      exact readFunctions_of_splitAtClose_eq_none named unclosedBelow
  | case4 header rest name named body after closed _ ih =>
      rw [← header.text_movedDown distance] at named
      have closedBelow : splitAtClose (rest.map (.movedDown distance)) =
          some (body.map (.movedDown distance), after.map (.movedDown distance)) := by
        rw [splitAtClose_movedDown, closed]
        rfl
      rw [List.map_cons, readFunctions_cons named closedBelow]
      simp only [readBody_movedDown, ih, mapError_bind]
      rfl

/-! ## Where the first text ends -/

theorem numberLines_append (start : Nat) (front back : List (List Char)) :
    numberLines start (front ++ back) =
      numberLines start front ++ numberLines (start + front.length) back := by
  induction front generalizing start with
  | nil => rfl
  | cons line rest ih =>
      have next : start + 1 + rest.length = start + (rest.length + 1) := by omega
      rw [List.cons_append, numberLines, numberLines, ih, List.length_cons, next]
      split <;> rfl

theorem numberLines_add (start distance : Nat) (lines : List (List Char)) :
    numberLines (start + distance) lines =
      (numberLines start lines).map (.movedDown distance) := by
  induction lines generalizing start with
  | nil => rfl
  | cons line rest ih =>
      rw [numberLines, numberLines, Nat.add_right_comm, ih]
      split <;> rfl

theorem length_splitOn (separator : Char) (text : List Char) :
    (text.splitOn separator).length = text.count separator + 1 := by
  induction text with
  | nil => rfl
  | cons char rest ih =>
      rw [List.splitOn_cons_eq_if_modifyHead, List.count_cons]
      split <;> simp [ih]

/-- The lines of a text below another one stand further down by the length of the first. -/
theorem sourceLines_append_cons (front back : List Char) :
    sourceLines (front ++ '\n' :: back) =
      sourceLines front ++ (sourceLines back).map (.movedDown (front.count '\n' + 1)) := by
  rw [sourceLines, sourceLines, sourceLines, List.splitOn_append_cons_self, numberLines_append,
    numberLines_add, length_splitOn]

/-- The end of a function is found before anything that follows it is looked at. -/
theorem splitAtClose_append_of_eq_some {lines body after : List SourceLine}
    (closed : splitAtClose lines = some (body, after)) (back : List SourceLine) :
    splitAtClose (lines ++ back) = some (body, after ++ back) := by
  induction lines generalizing body with
  | nil => contradiction
  | cons line rest ih =>
      rw [List.cons_append, splitAtClose]
      rw [splitAtClose] at closed
      split at closed
      next closes =>
        cases closed
        rw [if_pos closes]
      next opens =>
        obtain ⟨⟨inner, following⟩, found, equal⟩ := Option.map_eq_some_iff.mp closed
        cases equal
        rw [if_neg opens, ih found]
        rfl

/-- What stands behind functions that can be read is read on its own. -/
theorem readFunctions_append {front : List SourceLine} {functions : List Function}
    (read : readFunctions front = .ok functions) (back : List SourceLine) :
    readFunctions (front ++ back) = (functions ++ ·) <$> readFunctions back := by
  fun_induction readFunctions front generalizing functions with
  | case1 =>
      cases read
      exact (id_map (readFunctions back)).symm
  | case2 => contradiction
  | case3 => contradiction
  | case4 header rest name named body after closed _ ih =>
      obtain ⟨function, bodyRead, read⟩ := exists_of_bind_eq_ok read
      obtain ⟨following, afterRead, read⟩ := exists_of_bind_eq_ok read
      cases read
      rw [List.cons_append, readFunctions_cons named (splitAtClose_append_of_eq_some closed back),
        bodyRead, ih afterRead]
      cases readFunctions back <;> rfl

theorem readModule_append {front : String} {functions : List Function}
    (read : readModule front = .ok functions) (back : String) :
    readModule (front ++ "\n" ++ back) =
      (functions ++ ·) <$>
        (readModule back).mapError (.movedDown (front.toList.count '\n' + 1)) := by
  have lines : (front ++ "\n" ++ back).toList = front.toList ++ '\n' :: back.toList := by
    simp [String.toList_append]
  rw [readModule, lines, sourceLines_append_cons, readFunctions_append read,
    readFunctions_movedDown]
  rfl

/-- Texts compose. Below a text that can be read, a second text gives its own functions, behind
those of the first, and its own errors, further down by the number of the first text's lines. No
name of a block resolves or clashes from one text to the other: what is wrong with the second text
below the first is what is wrong with it alone. -/
theorem readModule_join {first : String} {functions : List Function}
    (read : readModule first = .ok functions) (second : String) :
    (∀ others, readModule second = .ok others →
      readModule (first ++ "\n" ++ second) = .ok (functions ++ others)) ∧
    (∀ error, readModule second = .error error →
      readModule (first ++ "\n" ++ second) =
        .error { error with line := error.line + (first.toList.count '\n' + 1) }) ∧
    ∀ cause, (∃ line, readModule (first ++ "\n" ++ second) = .error { line, cause }) ↔
      ∃ line, readModule second = .error { line, cause } := by
  rw [readModule_append read]
  refine ⟨?_, ?_, ?_⟩
  · intro others othersRead
    rw [othersRead]
    rfl
  · intro error failed
    rw [failed]
    rfl
  · intro cause
    constructor
    · rintro ⟨line, failed⟩
      cases secondRead : readModule second with
      | ok others =>
          rw [secondRead] at failed
          contradiction
      | error error =>
          rw [secondRead] at failed
          cases failed
          exact ⟨error.line, rfl⟩
    · rintro ⟨line, failed⟩
      rw [failed]
      exact ⟨line + (first.toList.count '\n' + 1), rfl⟩

/-- Two functions whose blocks are named alike, with a blank line and comments. -/
def loopsText : String :=
  "; loops\nfunc @spin \x7b\na:\n  JMP ^a ; again\n\x7d\n\nfunc @idle \x7b\na:\n  JMP ^b\nb:\n\x7d"

def loops : List Function :=
  [{ name := "spin"
     blocks := [{ name := "a", instrs := [{ opcode := .jmp, operands := [.block 0] }] }] },
   { name := "idle"
     blocks := [
      { name := "a", instrs := [{ opcode := .jmp, operands := [.block 1] }] },
      { name := "b", instrs := [] }] }]

/-- A third function with a block of the same name can stand below them, but one that jumps to a
block that only they have cannot. -/
theorem readModule_join_loops :
    readModule loopsText = .ok loops ∧
      readModule (loopsText ++ "\n" ++ "func @rest \x7b\na:\n\x7d") =
        .ok (loops ++ [{ name := "rest", blocks := [{ name := "a", instrs := [] }] }]) ∧
      readModule (loopsText ++ "\n" ++ "\nfunc @stray \x7b\na:\n  JMP ^b\n\x7d") =
        .error { line := 15, cause := .undefinedBlock "b" } := by
  have read : readModule loopsText = .ok loops := by decide +kernel
  have rest : readModule "func @rest \x7b\na:\n\x7d" =
      .ok [{ name := "rest", blocks := [{ name := "a", instrs := [] }] }] := by
    decide +kernel
  have stray : readModule "\nfunc @stray \x7b\na:\n  JMP ^b\n\x7d" =
      .error { line := 4, cause := .undefinedBlock "b" } := by
    decide +kernel
  exact ⟨read, (readModule_join read _).1 _ rest, (readModule_join read _).2.1 _ stray⟩

end MachineCode.Text
