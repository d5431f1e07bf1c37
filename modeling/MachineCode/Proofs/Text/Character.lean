import MachineCode.Text.Printer
import MachineCode.Proofs.Text.Cutting
import MachineCode.Proofs.Text.Numeral

/-!
# The characters of written forms

Which characters stand in the words of operands, in numbers and in the names of registers. The
letters and digits of ASCII are known without a look into the table of all scripts.
-/

namespace MachineCode.Text

/-! ## Letters and digits -/

theorem isAlphanum_iff {char : Char} :
    char.isAlphanum = true ↔
      (65 ≤ char.toNat ∧ char.toNat ≤ 90 ∨ 97 ≤ char.toNat ∧ char.toNat ≤ 122) ∨
        48 ≤ char.toNat ∧ char.toNat ≤ 57 := by
  change ((decide (char.val ≥ 65 ∧ char.val ≤ 90) ||
    decide (char.val ≥ 97) && decide (char.val ≤ 122)) ||
      decide (char.val ≥ 48) && decide (char.val ≤ 57)) = true ↔ _
  simp only [Bool.or_eq_true, Bool.and_eq_true, decide_eq_true_eq, UInt32.le_iff_toNat_le,
    ge_iff_le]
  exact Iff.rfl

theorem isAlphanumeric_of_ascii {char : Char} (ascii : char.toNat < 128) :
    isAlphanumeric char = char.isAlphanum := by
  have others : ∀ range ∈ alphanumericRanges.drop 3, 128 ≤ range.1 := by decide +kernel
  have outside : inRanges (alphanumericRanges.drop 3) char.toNat = false := by
    rw [inRanges, List.any_eq_false]
    intro range member
    have lower := others range member
    simp only [Bool.and_eq_true, decide_eq_true_eq]
    omega
  change inRanges ([(0x30, 0x39), (0x41, 0x5a), (0x61, 0x7a)] ++ alphanumericRanges.drop 3) _ = _
  rw [inRanges, List.any_append, ← inRanges, ← inRanges, outside, Bool.or_false, Bool.eq_iff_iff,
    isAlphanum_iff]
  simp only [inRanges, List.any_cons, List.any_nil, Bool.or_eq_true, Bool.and_eq_true,
    decide_eq_true_eq, Bool.false_eq_true, or_false]
  omega

/-- In ASCII the characters of labels can be told without the table. -/
theorem isLabelChar_eq {char : Char} {label : Bool} (ascii : char.toNat < 128)
    (known : (char.isAlphanum || char == '_' || char == '.') = label) :
    isLabelChar char = label := by
  rw [isLabelChar, isAlphanumeric_of_ascii ascii, known]

theorem isLabelChar_of_isAlphanum {char : Char} (alphanum : char.isAlphanum = true) :
    isLabelChar char = true := by
  have range := isAlphanum_iff.mp alphanum
  exact isLabelChar_eq (by omega) (by simp [alphanum])

theorem isAlphanum_of_isDigit {char : Char} (digit : char.isDigit = true) :
    char.isAlphanum = true := by
  rw [Char.isAlphanum, digit, Bool.or_true]

/-! ## The characters of words -/

/-- Whether a character may stand in the word of an operand. -/
def isWordChar (char : Char) : Bool :=
  !isSpace char && char != ',' && char != ';'

/-- Whether a character may stand in the word of an operand other than a symbol. -/
def isPlainChar (char : Char) : Bool :=
  isWordChar char && char != '='

theorem isWordChar_of_isPlainChar {char : Char} (plain : isPlainChar char = true) :
    isWordChar char = true :=
  (Bool.and_eq_true_iff.mp plain).1

theorem isSpace_of_isWordChar {char : Char} (word : isWordChar char = true) :
    isSpace char = false := by
  simp_all [isWordChar]

theorem isPlainChar_of_isLabelChar {char : Char} (label : isLabelChar char = true) :
    isPlainChar char = true := by
  have noSpace : isSpace char = false := by
    rw [Bool.eq_false_iff]
    intro space
    cases (isLabelChar_of_isSpace space).symm.trans label
  have differs (other : Char) (ascii : other.toNat < 128)
      (known : (other.isAlphanum || other == '_' || other == '.') = false) : char ≠ other := by
    rintro rfl
    cases (isLabelChar_eq ascii known).symm.trans label
  simp [isPlainChar, isWordChar, noSpace, differs ',' (by decide) (by decide),
    differs ';' (by decide) (by decide), differs '=' (by decide) (by decide)]

theorem isPlainChar_of_isAlphanum {char : Char} (alphanum : char.isAlphanum = true) :
    isPlainChar char = true :=
  isPlainChar_of_isLabelChar (isLabelChar_of_isAlphanum alphanum)

theorem isPlainChar_of_mem_repr {value : Int} {char : Char} (member : char ∈ value.repr.toList) :
    isPlainChar char = true := by
  obtain rfl | digit := mem_repr member
  · decide
  · exact isPlainChar_of_isAlphanum (isAlphanum_of_isDigit digit)

/-! ## The names of registers -/

/-- A name that consists of letters and digits and starts as the names of registers do. -/
structure IsRegisterName (name : List Char) : Prop where
  first : ∃ first ∈ ['p', 's', 'c', 'f', 'r'], name.head? = some first
  chars : ∀ char ∈ name, char.isAlphanum = true

theorem isRegisterName_wordName (number : Fin 16) :
    IsRegisterName (Register.wordName number).toList := by
  unfold Register.wordName
  split
  case h_6 number _ _ _ _ _ =>
    rw [String.toList_append, Nat.toList_repr]
    refine ⟨⟨'r', by decide, rfl⟩, ?_⟩
    intro char member
    rcases List.mem_append.mp member with isMark | inDigits
    · cases List.mem_singleton.mp isMark
      decide
    · exact isAlphanum_of_isDigit (isDigit_of_mem_toDigits _ char inDigits)
  all_goals exact ⟨⟨_, by decide, rfl⟩, by decide⟩

theorem isRegisterName_name (register : Register) : IsRegisterName register.name.toList := by
  obtain ⟨number, width⟩ := register
  obtain ⟨⟨first, isFirst, headEq⟩, chars⟩ := isRegisterName_wordName number
  cases width with
  | word => exact ⟨⟨first, isFirst, headEq⟩, chars⟩
  | byte =>
      rw [Register.name, String.toList_append]
      refine ⟨⟨first, isFirst, ?_⟩, ?_⟩
      · rw [List.head?_append, headEq]
        rfl
      · intro char member
        rcases List.mem_append.mp member with inName | isMark
        · exact chars char inName
        · cases List.mem_singleton.mp isMark
          decide

end MachineCode.Text
