import MachineCode.Text.Operand
import Mathlib.Data.List.TakeWhile

/-!
# Cutting text

What the reader cuts out of a text that has been put together: the lines of joined texts, the words
between blanks, the fields between commas, and the two sides of a separator.
-/

namespace MachineCode.Text

/-- A property of the characters of a text is decided by running through the text. -/
instance (priority := 2000) decidableForallMem (text : List Char) (property : Char → Prop)
    [DecidablePred property] : Decidable (∀ char ∈ text, property char) :=
  List.decidableBAll property text

/-! ## White space at the ends -/

/-- A text without white space at its ends. -/
structure IsTrimmed (text : List Char) : Prop where
  head : ∀ char ∈ text.head?, isSpace char = false
  last : ∀ char ∈ text.getLast?, isSpace char = false

theorem IsTrimmed.of_forall {text : List Char} (noSpace : ∀ char ∈ text, isSpace char = false) :
    IsTrimmed text where
  head char isHead := noSpace char (List.mem_of_mem_head? isHead)
  last char isLast := noSpace char (List.mem_of_getLast? isLast)

/-- Trimmed texts may be joined by anything. -/
theorem IsTrimmed.append {front back : List Char} (frontTrimmed : IsTrimmed front)
    (backTrimmed : IsTrimmed back) (frontNonempty : front ≠ []) (backNonempty : back ≠ [])
    (middle : List Char) : IsTrimmed (front ++ (middle ++ back)) where
  head char isHead := by
    obtain ⟨first, rest, rfl⟩ := List.exists_cons_of_ne_nil frontNonempty
    exact frontTrimmed.head char isHead
  last char isLast := by
    apply backTrimmed.last
    rwa [List.getLast?_append, List.getLast?_append, List.getLast?_eq_some_getLast backNonempty,
      Option.some_or, Option.some_or, ← List.getLast?_eq_some_getLast] at isLast

theorem dropWhile_isSpace_append {front text : List Char}
    (frontSpace : ∀ char ∈ front, isSpace char = true)
    (head : ∀ char ∈ text.head?, isSpace char = false) :
    (front ++ text).dropWhile isSpace = text := by
  rw [List.dropWhile_append_of_pos frontSpace]
  cases text with
  | nil => rfl
  | cons first rest => simp [head first rfl]

/-- White space around a trimmed text is removed. -/
theorem trim_append {front text back : List Char}
    (frontSpace : ∀ char ∈ front, isSpace char = true)
    (backSpace : ∀ char ∈ back, isSpace char = true) (trimmed : IsTrimmed text) :
    trim (front ++ (text ++ back)) = text := by
  have endTrimmed : trimEnd (text ++ back) = text := by
    rw [trimEnd, List.reverse_append, dropWhile_isSpace_append, List.reverse_reverse]
    · intro char member
      exact backSpace char (List.mem_reverse.mp member)
    · rw [List.head?_reverse]
      exact trimmed.last
  cases text with
  | nil =>
      have allSpace : ∀ char ∈ front ++ ([] ++ back), isSpace char = true := by
        intro char member
        exact (List.mem_append.mp member).elim (frontSpace char) (backSpace char)
      rw [trim, trimStart, List.dropWhile_eq_nil_iff.mpr allSpace]
      rfl
  | cons first rest =>
      rw [trim, trimStart, dropWhile_isSpace_append frontSpace, endTrimmed]
      exact trimmed.head

theorem trim_of_isTrimmed {text : List Char} (trimmed : IsTrimmed text) : trim text = text := by
  have trimEq : trim ([] ++ (text ++ [])) = text := trim_append (by simp) (by simp) trimmed
  rwa [List.nil_append, List.append_nil] at trimEq

theorem trim_cons_blank (text : List Char) : trim (' ' :: text) = trim text := by
  rw [trim, trimStart, List.dropWhile_cons_of_pos (by decide)]
  rfl

/-! ## Words and fields -/

/-- A word: a text that holds no white space. -/
structure IsWord (text : List Char) : Prop where
  nonempty : text ≠ []
  noSpace : ∀ char ∈ text, isSpace char = false

theorem IsWord.isTrimmed {text : List Char} (word : IsWord text) : IsTrimmed text :=
  .of_forall word.noSpace

theorem intercalate_ne_nil {parts : List (List Char)} (someParts : parts ≠ [])
    (nonempty : ∀ part ∈ parts, part ≠ []) (separator : List Char) :
    separator.intercalate parts ≠ [] := by
  obtain ⟨part, rest, rfl⟩ := List.exists_cons_of_ne_nil someParts
  have partNonempty := nonempty part (List.mem_cons_self ..)
  cases rest with
  | nil => simpa using partNonempty
  | cons next others => simp [partNonempty]

theorem IsTrimmed.intercalate {separator : List Char} {parts : List (List Char)}
    (trimmed : ∀ part ∈ parts, IsTrimmed part) (nonempty : ∀ part ∈ parts, part ≠ []) :
    IsTrimmed (separator.intercalate parts) := by
  induction parts with
  | nil => exact ⟨by simp, by simp⟩
  | cons part rest ih =>
      rw [List.forall_mem_cons] at trimmed nonempty
      cases rest with
      | nil =>
          rw [List.intercalate_singleton]
          exact trimmed.1
      | cons next others =>
          have othersNonempty := intercalate_ne_nil (by simp) nonempty.2 separator
          rw [List.intercalate_cons_cons, List.append_assoc]
          exact trimmed.1.append (ih trimmed.2 nonempty.2) nonempty.1 othersNonempty separator

theorem mem_intercalate {separator : List Char} {parts : List (List Char)} {char : Char}
    (member : char ∈ separator.intercalate parts) :
    char ∈ separator ∨ ∃ part ∈ parts, char ∈ part := by
  induction parts with
  | nil => simp at member
  | cons part rest ih =>
      cases rest with
      | nil => exact .inr ⟨part, by simp, by simpa using member⟩
      | cons next others =>
          rw [List.intercalate_cons_cons, List.mem_append, List.mem_append] at member
          rcases member with (inPart | inSeparator) | inRest
          · exact .inr ⟨part, by simp, inPart⟩
          · exact .inl inSeparator
          · obtain inSeparator | ⟨other, isPart, inOther⟩ := ih inRest
            · exact .inl inSeparator
            · exact .inr ⟨other, List.mem_cons_of_mem part isPart, inOther⟩

/-- Words that are joined by blanks are found again. -/
theorem words_intercalate {parts : List (List Char)} (isWord : ∀ part ∈ parts, IsWord part) :
    words ([' '].intercalate parts) = parts := by
  have single {part : List Char} (word : IsWord part) :
      [part].filter (fun word => !word.isEmpty) = [part] := by
    simp [word.nonempty]
  induction parts with
  | nil => rfl
  | cons part rest ih =>
      rw [List.forall_mem_cons] at isWord
      cases rest with
      | nil =>
          rw [List.intercalate_singleton, words, List.splitOnP_eq_singleton isWord.1.noSpace]
          exact single isWord.1
      | cons next others =>
          rw [List.intercalate_cons_cons, List.append_assoc, List.singleton_append, words,
            List.splitOnP_append_cons_of_forall_mem isWord.1.noSpace ' ' (by decide),
            List.filter_cons_of_pos (by simp [isWord.1.nonempty])]
          exact congrArg _ (ih isWord.2)

theorem commaFields_cons_blank (text : List Char) :
    commaFields (' ' :: text) = commaFields text := by
  rw [commaFields, commaFields, List.splitOn_cons_eq_if_modifyHead, if_neg (by decide)]
  cases text.splitOn ',' with
  | nil => rfl
  | cons first rest =>
      rw [List.modifyHead_cons, List.map_cons, List.map_cons, trim_cons_blank]

/-- Fields that are joined by commas are found again, also in front of white space. -/
theorem commaFields_intercalate {fields : List (List Char)} {back : List Char}
    (nonempty : fields ≠ []) (noComma : ∀ field ∈ fields, ',' ∉ field)
    (trimmed : ∀ field ∈ fields, IsTrimmed field)
    (backSpace : ∀ char ∈ back, isSpace char = true) :
    commaFields ([',', ' '].intercalate fields ++ back) = fields := by
  induction fields with
  | nil => contradiction
  | cons field rest ih =>
      rw [List.forall_mem_cons] at noComma trimmed
      cases rest with
      | nil =>
          have noCommaLast : ',' ∉ field ++ back := by
            intro member
            rcases List.mem_append.mp member with inField | inBack
            · exact noComma.1 inField
            · exact absurd (backSpace ',' inBack) (by decide)
          have trimEq : trim ([] ++ (field ++ back)) = field :=
            trim_append (by simp) backSpace trimmed.1
          rw [List.intercalate_singleton, commaFields, List.splitOn_eq_singleton noCommaLast,
            List.map_singleton, ← List.nil_append (field ++ back), trimEq]
      | cons next others =>
          have fieldsEq := ih (by simp) noComma.2 trimmed.2
          rw [List.intercalate_cons_cons, List.append_assoc, List.append_assoc]
          change commaFields (field ++ ',' :: ' ' :: _) = _
          rw [commaFields, List.splitOn_append_cons_self_of_not_mem noComma.1, List.map_cons,
            trim_of_isTrimmed trimmed.1]
          exact congrArg _ ((commaFields_cons_blank _).trans fieldsEq)

/-! ## The first separator -/

theorem splitFirst_append_cons {isSeparator : Char → Bool} {front back : List Char}
    {separator : Char} (frontFree : ∀ char ∈ front, isSeparator char = false)
    (separates : isSeparator separator = true) :
    splitFirst isSeparator (front ++ separator :: back) = some (front, back) := by
  have frontPasses : ∀ char ∈ front, (!isSeparator char) = true := by
    intro char member
    rw [frontFree char member]
    rfl
  rw [splitFirst, List.dropWhile_append_of_pos frontPasses,
    List.takeWhile_append_of_pos frontPasses]
  simp [separates]

theorem splitFirst_eq_none {isSeparator : Char → Bool} {text : List Char}
    (free : ∀ char ∈ text, isSeparator char = false) : splitFirst isSeparator text = none := by
  have passes : ∀ char ∈ text, (!isSeparator char) = true := by
    intro char member
    rw [free char member]
    rfl
  rw [splitFirst, List.dropWhile_eq_nil_iff.mpr passes]

/-! ## Lines -/

/-- The contents of the lines of a text that have one. -/
def contents (text : List Char) : List (List Char) :=
  (sourceLines text).map SourceLine.text

theorem map_text_numberLines (start : Nat) (lines : List (List Char)) :
    (numberLines start lines).map SourceLine.text =
      (lines.map content).filter fun text => !text.isEmpty := by
  induction lines generalizing start with
  | nil => rfl
  | cons line rest ih =>
      rw [numberLines, List.map_cons]
      split
      next empty => rw [ih, List.filter_cons_of_neg (by simp [empty])]
      next nonempty => rw [List.map_cons, ih, List.filter_cons_of_pos (by simp [nonempty])]

theorem contents_append_cons (front back : List Char) :
    contents (front ++ '\n' :: back) = contents front ++ contents back := by
  simp only [contents, sourceLines, map_text_numberLines, List.splitOn_append_cons_self,
    List.map_append, List.filter_append]

/-- The lines of joined texts are the lines of the texts. -/
theorem contents_intercalate (parts : List (List Char)) :
    contents (['\n'].intercalate parts) = parts.flatMap contents := by
  induction parts with
  | nil => decide
  | cons part rest ih =>
      cases rest with
      | nil => simp
      | cons next others =>
          rw [List.intercalate_cons_cons, List.append_assoc, List.singleton_append,
            contents_append_cons, ih]
          rfl

theorem contents_eq_singleton {line : List Char} (noBreak : '\n' ∉ line)
    (nonempty : content line ≠ []) : contents line = [content line] := by
  rw [contents, sourceLines, map_text_numberLines, List.splitOn_eq_singleton noBreak,
    List.map_singleton, List.filter_cons_of_pos (by simp [nonempty])]
  rfl

/-- White space around the content of a line does not count. -/
theorem content_append {front text back : List Char}
    (frontSpace : ∀ char ∈ front, isSpace char = true)
    (backSpace : ∀ char ∈ back, isSpace char = true) (noComment : ';' ∉ text)
    (trimmed : IsTrimmed text) : content (front ++ (text ++ back)) = text := by
  have noSemicolon : ∀ char ∈ front ++ (text ++ back), (char != ';') = true := by
    intro char member
    rw [bne_iff_ne]
    rintro rfl
    rw [List.mem_append, List.mem_append] at member
    rcases member with inFront | inText | inBack
    · exact absurd (frontSpace ';' inFront) (by decide)
    · exact noComment inText
    · exact absurd (backSpace ';' inBack) (by decide)
  rw [content, List.takeWhile_eq_self_iff.mpr noSemicolon,
    trim_append frontSpace backSpace trimmed]

/-- A comment does not count. -/
theorem content_append_comment {line : List Char} (noComment : ';' ∉ line) (comment : List Char) :
    content (line ++ ';' :: comment) = content line := by
  have noSemicolon : ∀ char ∈ line, (char != ';') = true := by
    intro char member
    rw [bne_iff_ne]
    rintro rfl
    exact noComment member
  rw [content, content, List.takeWhile_append_of_pos noSemicolon,
    List.takeWhile_eq_self_iff.mpr noSemicolon]
  simp

/-- A line that consists of blanks and of its content. -/
theorem contents_line {text : List Char} (front : List Char)
    (frontBlank : ∀ char ∈ front, char = ' ') (nonempty : text ≠ []) (trimmed : IsTrimmed text)
    (noBreak : '\n' ∉ text) (noComment : ';' ∉ text) : contents (front ++ text) = [text] := by
  have frontSpace : ∀ char ∈ front, isSpace char = true := by
    intro char member
    rw [frontBlank char member]
    decide
  have contentEq : content (front ++ (text ++ [])) = text :=
    content_append frontSpace (by simp) noComment trimmed
  rw [List.append_nil] at contentEq
  have lineNoBreak : '\n' ∉ front ++ text := by
    intro member
    rcases List.mem_append.mp member with inFront | inText
    · exact absurd (frontBlank '\n' inFront) (by decide)
    · exact noBreak inText
  rw [contents_eq_singleton lineNoBreak (by rwa [contentEq]), contentEq]

/-- A line that ends in blanks and a comment. -/
theorem contents_commented {text : List Char} (trimmed : IsTrimmed text) (nonempty : text ≠ [])
    (noBreak : '\n' ∉ text) (noComment : ';' ∉ text) (back comment : List Char)
    (backBlank : ∀ char ∈ back, char = ' ') (commentNoBreak : '\n' ∉ comment) :
    contents (text ++ (back ++ ';' :: comment)) = [text] := by
  have backSpace : ∀ char ∈ back, isSpace char = true := by
    intro char member
    rw [backBlank char member]
    decide
  have notInBack {char : Char} (noBlank : char ≠ ' ') : char ∉ back :=
    fun member => noBlank (backBlank char member)
  have contentEq : content (text ++ (back ++ ';' :: comment)) = text := by
    have uncommented : ';' ∉ text ++ back := by
      rw [List.mem_append, not_or]
      exact ⟨noComment, notInBack (by decide)⟩
    rw [← List.append_assoc, content_append_comment uncommented]
    exact content_append (List.forall_mem_nil _) backSpace noComment trimmed
  have lineNoBreak : '\n' ∉ text ++ (back ++ ';' :: comment) := by
    rw [List.mem_append, List.mem_append, List.mem_cons, not_or, not_or, not_or]
    exact ⟨noBreak, notInBack (by decide), by decide, commentNoBreak⟩
  rw [contents_eq_singleton lineNoBreak (by rwa [contentEq]), contentEq]

theorem flatMap_contents_map {item : Type} {items : List item} {line text : item → List Char}
    (every : ∀ one ∈ items, contents (line one) = [text one]) :
    (items.map line).flatMap contents = items.map text := by
  induction items with
  | nil => rfl
  | cons one rest ih =>
      rw [List.forall_mem_cons] at every
      rw [List.map_cons, List.flatMap_cons, every.1, ih every.2]
      rfl

end MachineCode.Text
