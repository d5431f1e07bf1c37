import MachineCode.Text.Reader
import MachineCode.Proofs.Text.Instr

/-!
# Directives are read back

The lines in front of the blocks of a function describe its frame and the registers that it
preserves. Every line adds what it says to what the lines before it have said.
-/

namespace MachineCode.Text

/-! ## The words of directives -/

def isDirectiveChar (char : Char) : Bool :=
  char.isAlphanum || char == '_' || char == '=' || char == '-'

/-- A word of a directive. -/
structure IsDirectiveWord (word : List Char) : Prop where
  nonempty : word ≠ []
  chars : ∀ char ∈ word, isDirectiveChar char = true

def objectWords (object : FrameObject) : List (List Char) :=
  ["size=".toList ++ object.size.toNat.repr.toList,
    "offset=".toList ++ object.offset.toInt.repr.toList]

/-- The words of the directives of a function, line by line. -/
def directiveWords (function : Function) : List (List (List Char)) :=
  let frame := function.frame
  (if frame.stackSize = 0 then []
    else [["stack_size".toList, frame.stackSize.toNat.repr.toList]]) ++
    (if frame.offsetAdjustment = 0 then []
      else [["offset_adjustment".toList, frame.offsetAdjustment.toInt.repr.toList]]) ++
    (if frame.hasVarSizedObjects then [["var_sized_objects".toList]] else []) ++
    (if frame.isAddressTaken then [["frame_address_taken".toList]] else []) ++
    frame.objects.map (fun object => "object".toList :: objectWords object) ++
    frame.fixedObjects.map (fun object => "fixed_object".toList :: objectWords object) ++
    (if function.calleeSaved.isEmpty then []
      else ["callee_saved".toList :: function.calleeSaved.map fun register => register.name.toList])

theorem intercalate_cons (first : List Char) (rest : List (List Char)) :
    [' '].intercalate (first :: rest) = first ++ rest.flatMap (' ' :: ·) := by
  induction rest generalizing first with
  | nil => simp
  | cons next others ih =>
      rw [List.intercalate_cons_cons, ih, List.flatMap_cons, List.append_assoc]
      rfl

theorem toList_registerList (registers : List Register) :
    (Function.registerList registers).toList =
      registers.flatMap fun register => ' ' :: register.name.toList := by
  rw [Function.registerList, String.toList_join, List.flatMap_map]
  simp [String.toList_append]

theorem toList_objectLine (keyword : String) (object : FrameObject) :
    (Function.objectLine keyword object).toList =
      ' ' :: ' ' :: [' '].intercalate (keyword.toList :: objectWords object) := by
  simp [Function.objectLine, objectWords, String.toList_append]

theorem map_toList_directiveLines (function : Function) :
    function.directiveLines.map String.toList =
      (directiveWords function).map fun parts => ' ' :: ' ' :: [' '].intercalate parts := by
  have savedLine : ("  callee_saved" ++ Function.registerList function.calleeSaved).toList =
      ' ' :: ' ' :: [' '].intercalate ("callee_saved".toList ::
        function.calleeSaved.map fun register => register.name.toList) := by
    rw [String.toList_append, toList_registerList, intercalate_cons, List.flatMap_map]
    rfl
  simp only [Function.directiveLines, directiveWords, List.map_append, List.map_map]
  refine congrArg₂ _ (congrArg₂ _ (congrArg₂ _ (congrArg₂ _ (congrArg₂ _ (congrArg₂ _ ?_ ?_) ?_) ?_)
    ?_) ?_) ?_
  · split <;> simp [String.toList_append]
  · split <;> simp [String.toList_append]
  · split <;> rfl
  · split <;> rfl
  · simp [Function.comp_def, toList_objectLine]
  · simp [Function.comp_def, toList_objectLine]
  · split
    · rfl
    · rw [List.map_singleton, List.map_singleton, savedLine]

/-! ## The characters of directives -/

theorem isDirectiveChar_of_isAlphanum {char : Char} (alphanum : char.isAlphanum = true) :
    isDirectiveChar char = true := by
  rw [isDirectiveChar, alphanum]
  rfl

theorem isDirectiveWord_repr (value : Int) : IsDirectiveWord value.repr.toList where
  nonempty := repr_ne_nil value
  chars char member := by
    obtain rfl | digit := mem_repr member
    · decide
    · exact isDirectiveChar_of_isAlphanum (isAlphanum_of_isDigit digit)

theorem isDirectiveWord_register (register : Register) :
    IsDirectiveWord register.name.toList where
  nonempty := (forall_mem_name (.physical register)).1
  chars char member :=
    isDirectiveChar_of_isAlphanum ((isRegisterName_name register).chars char member)

theorem IsDirectiveWord.append {front back : List Char} (frontWord : IsDirectiveWord front)
    (backWord : IsDirectiveWord back) : IsDirectiveWord (front ++ back) where
  nonempty := List.append_ne_nil_of_left_ne_nil frontWord.nonempty back
  chars char member := (List.mem_append.mp member).elim (frontWord.chars char) (backWord.chars char)

theorem isDirectiveWord_of_mem_objectWords {object : FrameObject} :
    ∀ word ∈ objectWords object, IsDirectiveWord word := by
  have size : IsDirectiveWord ("size=".toList ++ object.size.toNat.repr.toList) :=
    .append ⟨by decide, by decide⟩ (isDirectiveWord_repr object.size.toNat)
  have offset : IsDirectiveWord ("offset=".toList ++ object.offset.toInt.repr.toList) :=
    .append ⟨by decide, by decide⟩ (isDirectiveWord_repr _)
  exact List.forall_mem_cons.mpr ⟨size, List.forall_mem_singleton.mpr offset⟩

theorem isDirectiveWord_of_mem_directiveWords {function : Function} {parts : List (List Char)}
    (member : parts ∈ directiveWords function) :
    parts ≠ [] ∧ ∀ word ∈ parts, IsDirectiveWord word := by
  simp only [directiveWords, List.mem_append, List.mem_ite_nil_left, List.mem_ite_nil_right,
    List.mem_singleton, List.mem_map] at member
  rcases member with (((((⟨-, rfl⟩ | ⟨-, rfl⟩) | ⟨-, rfl⟩) | ⟨-, rfl⟩) | ⟨object, -, rfl⟩) |
    ⟨object, -, rfl⟩) | ⟨-, rfl⟩
  · refine ⟨by simp, List.forall_mem_cons.mpr ⟨⟨by decide, by decide⟩, ?_⟩⟩
    exact List.forall_mem_singleton.mpr (isDirectiveWord_repr function.frame.stackSize.toNat)
  · refine ⟨by simp, List.forall_mem_cons.mpr ⟨⟨by decide, by decide⟩, ?_⟩⟩
    exact List.forall_mem_singleton.mpr (isDirectiveWord_repr _)
  · exact ⟨by simp, List.forall_mem_singleton.mpr ⟨by decide, by decide⟩⟩
  · exact ⟨by simp, List.forall_mem_singleton.mpr ⟨by decide, by decide⟩⟩
  · exact ⟨by simp, List.forall_mem_cons.mpr
      ⟨⟨by decide, by decide⟩, isDirectiveWord_of_mem_objectWords⟩⟩
  · exact ⟨by simp, List.forall_mem_cons.mpr
      ⟨⟨by decide, by decide⟩, isDirectiveWord_of_mem_objectWords⟩⟩
  · refine ⟨by simp, List.forall_mem_cons.mpr ⟨⟨by decide, by decide⟩, ?_⟩⟩
    intro word member
    obtain ⟨register, -, rfl⟩ := List.mem_map.mp member
    exact isDirectiveWord_register register

theorem isSpace_of_isDirectiveChar {char : Char} (directive : isDirectiveChar char = true) :
    isSpace char = false := by
  simp only [isDirectiveChar, Bool.or_eq_true, beq_iff_eq] at directive
  rcases directive with ((alphanum | rfl) | rfl) | rfl
  · exact isSpace_of_isWordChar (isWordChar_of_isPlainChar (isPlainChar_of_isAlphanum alphanum))
  · decide
  · decide
  · decide

theorem IsDirectiveWord.isWord {word : List Char} (directive : IsDirectiveWord word) :
    IsWord word :=
  ⟨directive.nonempty, fun char member => isSpace_of_isDirectiveChar (directive.chars char member)⟩

theorem not_mem_directive {parts : List (List Char)} {char : Char}
    (isWord : ∀ part ∈ parts, IsDirectiveWord part) (noBlank : char ≠ ' ')
    (noDirective : isDirectiveChar char = false) : char ∉ [' '].intercalate parts := by
  intro member
  obtain isBlank | ⟨part, isPart, inPart⟩ := mem_intercalate member
  · exact noBlank (List.mem_singleton.mp isBlank)
  · cases noDirective.symm.trans ((isWord part isPart).chars char inPart)

/-! ## Reading directives -/

/-- Lines with the given words turn a function into another one. -/
def Directs (directives : List (List (List Char))) (start finish : Function) : Prop :=
  ∀ lines : List SourceLine, lines.map (fun line => words line.text) = directives →
    lines.foldlM readDirective start = .ok finish

namespace Directs

variable {start middle finish : Function}

theorem nil (function : Function) : Directs [] function function := by
  intro lines linesEq
  rw [List.map_eq_nil_iff.mp linesEq]
  rfl

theorem append {front back : List (List (List Char))} (first : Directs front start middle)
    (second : Directs back middle finish) : Directs (front ++ back) start finish := by
  intro lines linesEq
  obtain ⟨frontLines, backLines, rfl, frontEq, backEq⟩ := List.map_eq_append_iff.mp linesEq
  rw [List.foldlM_append, first frontLines frontEq]
  exact second backLines backEq

theorem singleton {parts : List (List Char)}
    (reads : ∀ line : SourceLine, words line.text = parts →
      readDirective start line = .ok finish) : Directs [parts] start finish := by
  intro lines linesEq
  obtain ⟨line, rfl, lineEq⟩ := List.map_eq_singleton_iff.mp linesEq
  rw [List.foldlM_cons, reads line lineEq]
  rfl

end Directs

section

variable (function : Function) {line : SourceLine}

theorem readInteger_repr {number : UInt64} :
    readInteger line number.toNat.repr.toList = .ok (Int64.ofNat number.toNat) := by
  rw [readInteger, readInteger?_repr number.toNat_lt_size]

theorem readInteger_toInt (value : Int64) :
    readInteger line value.toInt.repr.toList = .ok value := by
  rw [readInteger, readInteger?_toInt]

theorem readDirective_stackSize {size : UInt64}
    (wordsEq : words line.text = ["stack_size".toList, size.toNat.repr.toList]) :
    readDirective function line =
      .ok { function with frame := { function.frame with stackSize := size } } := by
  rw [readDirective, wordsEq]
  simp [-Nat.toList_repr, readDirectiveInteger, readInteger_repr, bind, Except.bind]

theorem readDirective_offsetAdjustment {adjustment : Int64}
    (wordsEq : words line.text = ["offset_adjustment".toList, adjustment.toInt.repr.toList]) :
    readDirective function line =
      .ok { function with frame := { function.frame with offsetAdjustment := adjustment } } := by
  rw [readDirective, wordsEq]
  simp [readDirectiveInteger, readInteger_toInt, bind, Except.bind]

theorem readDirective_varSizedObjects (wordsEq : words line.text = ["var_sized_objects".toList]) :
    readDirective function line =
      .ok { function with frame := { function.frame with hasVarSizedObjects := true } } := by
  rw [readDirective, wordsEq]
  simp

theorem readDirective_addressTaken (wordsEq : words line.text = ["frame_address_taken".toList]) :
    readDirective function line =
      .ok { function with frame := { function.frame with isAddressTaken := true } } := by
  rw [readDirective, wordsEq]
  simp

theorem readObjectField_size (fields : ObjectFields) (size : UInt64) :
    readObjectField line fields ("size=".toList ++ size.toNat.repr.toList) =
      .ok { fields with size? := some size } := by
  change readObjectField line fields ("size".toList ++ '=' :: _) = _
  rw [readObjectField, splitFirst_append_cons (by decide) (by decide)]
  simp [-Nat.toList_repr, readInteger_repr, bind, Except.bind]

theorem readObjectField_offset (fields : ObjectFields) (offset : Int64) :
    readObjectField line fields ("offset=".toList ++ offset.toInt.repr.toList) =
      .ok { fields with offset? := some offset } := by
  change readObjectField line fields ("offset".toList ++ '=' :: _) = _
  rw [readObjectField, splitFirst_append_cons (by decide) (by decide)]
  simp [readInteger_toInt, bind, Except.bind]

theorem readObject_objectWords (object : FrameObject) :
    readObject line (objectWords object) = .ok object := by
  rw [objectWords, readObject, List.foldlM_cons, readObjectField_size]
  simp only [List.foldlM_cons, bind, Except.bind, readObjectField_offset]
  rfl

theorem readDirective_object {object : FrameObject}
    (wordsEq : words line.text = "object".toList :: objectWords object) :
    readDirective function line =
      .ok { function with frame := (function.frame.addObject object).2 } := by
  rw [readDirective, wordsEq]
  simp [readObject_objectWords, bind, Except.bind]

theorem readDirective_fixedObject {object : FrameObject}
    (wordsEq : words line.text = "fixed_object".toList :: objectWords object) :
    readDirective function line =
      .ok { function with frame := (function.frame.addFixedObject object).2 } := by
  rw [readDirective, wordsEq]
  simp [readObject_objectWords, bind, Except.bind]

theorem readDirective_calleeSaved {registers : List Register}
    (wordsEq : words line.text =
      "callee_saved".toList :: registers.map fun register => register.name.toList) :
    readDirective function line =
      .ok { function with calleeSaved := function.calleeSaved ++ registers } := by
  have read : (registers.map fun register => register.name.toList).mapM (readPreserved line) =
      .ok registers := by
    rw [mapM_eq_ok_iff, List.forall₂_map_left_iff, List.forall₂_same]
    intro register _
    simp [readPreserved]
  rw [readDirective, wordsEq]
  simp [read, bind, Except.bind]

end

namespace Directs

variable {start finish : Function}

theorem ite {condition : Prop} [Decidable condition] {directives : List (List (List Char))}
    (unchanged : condition → start = finish)
    (directs : ¬condition → Directs directives start finish) :
    Directs (if condition then [] else directives) start finish := by
  split
  next holds => exact unchanged holds ▸ nil start
  next fails => exact directs fails

/-- Object directives append to a list in the function. -/
theorem objects {keyword : String} (put : List FrameObject → Function)
    (reads : ∀ before object,
      Directs [keyword.toList :: objectWords object] (put before) (put (before ++ [object])))
    (before objects : List FrameObject) :
    Directs (objects.map fun object => keyword.toList :: objectWords object)
      (put before) (put (before ++ objects)) := by
  induction objects generalizing before with
  | nil =>
      rw [List.append_nil]
      exact nil (put before)
  | cons object rest ih =>
      have others := (reads before object).append (ih (before ++ [object]))
      rwa [List.append_assoc] at others

end Directs

/-- The directives of a function say what its frame and its preserved registers are. -/
theorem directs_directiveWords (function : Function) :
    Directs (directiveWords function) { name := function.name }
      { name := function.name
        frame := { function.frame with framePointer? := none }
        calleeSaved := function.calleeSaved } := by
  obtain ⟨name, blocks, ⟨stackSize, hasVarSizedObjects, isAddressTaken, offsetAdjustment, objects,
    fixedObjects, framePointer?⟩, calleeSaved, calleeSavedSize⟩ := function
  have sizeStep : Directs
      (if stackSize = 0 then [] else [["stack_size".toList, stackSize.toNat.repr.toList]])
      { name } { name, frame := { stackSize } } :=
    .ite (by rintro rfl; rfl) fun _ => .singleton fun _ => readDirective_stackSize _
  have adjustmentStep : Directs
      (if offsetAdjustment = 0 then []
        else [["offset_adjustment".toList, offsetAdjustment.toInt.repr.toList]])
      { name, frame := { stackSize } } { name, frame := { stackSize, offsetAdjustment } } :=
    .ite (by rintro rfl; rfl) fun _ => .singleton fun _ => readDirective_offsetAdjustment _
  have varSizedStep : Directs (if hasVarSizedObjects then [["var_sized_objects".toList]] else [])
      { name, frame := { stackSize, offsetAdjustment } }
      { name, frame := { stackSize, offsetAdjustment, hasVarSizedObjects } } := by
    cases hasVarSizedObjects with
    | false => exact .nil _
    | true => exact .singleton fun _ => readDirective_varSizedObjects _
  have addressStep : Directs (if isAddressTaken then [["frame_address_taken".toList]] else [])
      { name, frame := { stackSize, offsetAdjustment, hasVarSizedObjects } }
      { name, frame := { stackSize, offsetAdjustment, hasVarSizedObjects, isAddressTaken } } := by
    cases isAddressTaken with
    | false => exact .nil _
    | true => exact .singleton fun _ => readDirective_addressTaken _
  let frame (objects fixedObjects : List FrameObject) : Frame :=
    { stackSize, offsetAdjustment, hasVarSizedObjects, isAddressTaken, objects, fixedObjects }
  have objectsStep : Directs (objects.map fun object => "object".toList :: objectWords object)
      { name, frame := frame [] [] } { name, frame := frame objects [] } :=
    .objects (fun objects => { name, frame := frame objects [] })
      (fun _ _ => .singleton fun _ => readDirective_object _) [] objects
  have fixedStep : Directs
      (fixedObjects.map fun object => "fixed_object".toList :: objectWords object)
      { name, frame := frame objects [] } { name, frame := frame objects fixedObjects } :=
    .objects (fun fixedObjects => { name, frame := frame objects fixedObjects })
      (fun _ _ => .singleton fun _ => readDirective_fixedObject _) [] fixedObjects
  have savedStep : Directs
      (if calleeSaved.isEmpty then []
        else ["callee_saved".toList :: calleeSaved.map fun register => register.name.toList])
      { name, frame := frame objects fixedObjects }
      { name, frame := frame objects fixedObjects, calleeSaved } :=
    .ite (fun empty => by rw [List.isEmpty_iff.mp empty])
      fun _ => .singleton fun _ => readDirective_calleeSaved _
  exact (((((sizeStep.append adjustmentStep).append varSizedStep).append addressStep).append
    objectsStep).append fixedStep).append savedStep

end MachineCode.Text
