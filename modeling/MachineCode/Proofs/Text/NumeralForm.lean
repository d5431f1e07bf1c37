import MachineCode.Proofs.Text.Numeral
import MachineCode.Text.Operand
import Mathlib.Data.Nat.Digits.Defs

/-!
# The written forms of integers

`Numeral` describes all texts that denote an integer: an optional minus sign, the mark of the base,
an optional plus sign and at least one digit. The digits denote a magnitude, which counts as an
integer of 64 bits only if it is below 2^64. The main statement is that the reader accepts exactly
these texts and gives the two's complement value of the magnitude or of its negation.
-/

namespace MachineCode.Text

/-- The base of a numeral. The mark of a hexadecimal one is a letter of either case. -/
inductive Radix where
  | decimal
  | hexadecimal (isUpper : Bool)
  deriving DecidableEq, Repr

def Radix.base : Radix → Nat
  | .decimal => 10
  | .hexadecimal _ => 16

/-- The text that tells the base. -/
def Radix.mark : Radix → List Char
  | .decimal => []
  | .hexadecimal isUpper => ['0', if isUpper then 'X' else 'x']

/-- The character for a digit value. From ten on it is a letter of the given case. -/
def digitOfCase (isUpper : Bool) (value : Nat) : Char :=
  if isUpper then value.digitChar.toUpper else value.digitChar

/-- A digit of a base, with the case in which it is written. -/
structure Digit (base : Nat) where
  value : Fin base
  isUpper : Bool := false
  deriving DecidableEq, Repr

def Digit.char {base : Nat} (digit : Digit base) : Char :=
  digitOfCase digit.isUpper digit.value

/-- The number that digits denote, the most significant one first. -/
def digitsNumber {base : Nat} (digits : List (Digit base)) : Nat :=
  Nat.ofDigits base (digits.map fun digit => digit.value.val).reverse

def signText (char : Char) (isPresent : Bool) : List Char :=
  if isPresent then [char] else []

/-- A written form of an integer. -/
structure Numeral where
  isNegative : Bool := false
  radix : Radix := .decimal
  hasPlus : Bool := false
  digits : List (Digit radix.base)
  nonempty : digits ≠ []

namespace Numeral

/-- The text behind the mark of the base. -/
def unsignedText (numeral : Numeral) : List Char :=
  signText '+' numeral.hasPlus ++ numeral.digits.map Digit.char

def text (numeral : Numeral) : List Char :=
  signText '-' numeral.isNegative ++ (numeral.radix.mark ++ numeral.unsignedText)

/-- The number that the digits of a numeral denote. -/
def magnitude (numeral : Numeral) : Nat :=
  digitsNumber numeral.digits

/-- The integer of 64 bits that a numeral denotes, in two's complement. -/
def value (numeral : Numeral) : Int64 :=
  .ofInt (if numeral.isNegative then -numeral.magnitude else numeral.magnitude)

end Numeral

/-! ## Digits -/

theorem digit?_char (radix : Radix) (digit : Digit radix.base) :
    digit? radix.base digit.char = some digit.value.val := by
  have decimal : ∀ value < 10, ∀ isUpper, digit? 10 (digitOfCase isUpper value) = some value := by
    decide
  have hexadecimal : ∀ value < 16, ∀ isUpper,
      digit? 16 (digitOfCase isUpper value) = some value := by
    decide
  cases radix with
  | decimal => exact decimal _ digit.value.isLt digit.isUpper
  | hexadecimal isUpper => exact hexadecimal _ digit.value.isLt digit.isUpper

/-- Every character that has a value is a written form of that value. -/
theorem exists_digitOfCase {base : Nat} {char : Char} {value : Nat}
    (read : digit? base char = some value) :
    value < base ∧ ∃ isUpper, digitOfCase isUpper value = char := by
  have numeric : ∀ value < 10, digitOfCase false value = .ofNat (48 + value) := by decide
  have lower : ∀ value < 6, digitOfCase false (value + 10) = .ofNat (97 + value) := by decide
  have upper : ∀ value < 6, digitOfCase true (value + 10) = .ofNat (65 + value) := by decide
  obtain ⟨found, inBase⟩ := Option.filter_eq_some_iff.mp read
  refine ⟨of_decide_eq_true inBase, ?_⟩
  split at found
  next isDigit =>
    have bounds : 48 ≤ char.toNat ∧ char.toNat ≤ 57 := Char.isDigit_iff_toNat.mp isDigit
    cases found
    refine ⟨false, (numeric (char.toNat - 48) (by omega)).trans ?_⟩
    rw [Nat.add_sub_cancel' bounds.1, Char.ofNat_toNat]
  next =>
    split at found
    next isLower =>
      rw [Bool.and_eq_true, decide_eq_true_eq, decide_eq_true_eq] at isLower
      have bounds : 97 ≤ char.toNat ∧ char.toNat ≤ 102 := isLower
      cases found
      refine ⟨false, (lower (char.toNat - 97) (by omega)).trans ?_⟩
      rw [Nat.add_sub_cancel' bounds.1, Char.ofNat_toNat]
    next =>
      split at found
      next isUpper =>
        rw [Bool.and_eq_true, decide_eq_true_eq, decide_eq_true_eq] at isUpper
        have bounds : 65 ≤ char.toNat ∧ char.toNat ≤ 70 := isUpper
        cases found
        refine ⟨true, (upper (char.toNat - 65) (by omega)).trans ?_⟩
        rw [Nat.add_sub_cancel' bounds.1, Char.ofNat_toNat]
      next => contradiction

/-- A character without a value is no digit. -/
theorem Digit.char_ne {radix : Radix} {char : Char} (noDigit : digit? radix.base char = none)
    (digit : Digit radix.base) : digit.char ≠ char := by
  rintro rfl
  rw [digit?_char] at noDigit
  contradiction

theorem digitsNumber_cons {base : Nat} (digit : Digit base) (rest : List (Digit base)) :
    digitsNumber (digit :: rest) = digitsNumber rest + base ^ rest.length * digit.value := by
  rw [digitsNumber, List.map_cons, List.reverse_cons, Nat.ofDigits_append, Nat.ofDigits_singleton,
    List.length_reverse, List.length_map, digitsNumber]

/-- Digits continue a number: they shift it and add their own. -/
theorem digitsValue?_chars (radix : Radix) (digits : List (Digit radix.base)) (value : Nat) :
    digitsValue? radix.base value (digits.map Digit.char) =
      some (digitsNumber digits + radix.base ^ digits.length * value) := by
  induction digits generalizing value with
  | nil => simp [digitsValue?, digitsNumber]
  | cons digit rest ih =>
      rw [List.map_cons, digitsValue?, digit?_char, digitsNumber_cons, List.length_cons]
      refine (ih _).trans (congrArg some ?_)
      ring

theorem exists_digits_of_digitsValue? {radix : Radix} {text : List Char} {value number : Nat}
    (read : digitsValue? radix.base value text = some number) :
    ∃ digits : List (Digit radix.base), digits.map Digit.char = text := by
  induction text generalizing value with
  | nil => exact ⟨[], rfl⟩
  | cons char rest ih =>
      obtain ⟨digit, digitRead, restRead⟩ := Option.bind_eq_some_iff.mp read
      obtain ⟨inBase, isUpper, charEq⟩ := exists_digitOfCase digitRead
      obtain ⟨digits, restEq⟩ := ih restRead
      exact ⟨⟨⟨digit, inBase⟩, isUpper⟩ :: digits, congrArg₂ List.cons charEq restEq⟩

/-! ## Magnitudes -/

theorem readUnsigned?_chars {radix : Radix} {digits : List (Digit radix.base)}
    (nonempty : digits ≠ []) (hasPlus : Bool) (limit : Nat) :
    readUnsigned? radix.base limit (signText '+' hasPlus ++ digits.map Digit.char) =
      (some (digitsNumber digits)).filter (· < limit) := by
  have noPlus : digit? radix.base '+' = none := by cases radix <;> rfl
  have number := digitsValue?_chars radix digits 0
  rw [Nat.mul_zero, Nat.add_zero] at number
  cases digits with
  | nil => contradiction
  | cons digit rest =>
      cases hasPlus with
      | true => exact congrArg (Option.filter (· < limit)) number
      | false =>
          unfold readUnsigned?
          split
          next plus => exact absurd (List.cons.inj plus).1 (digit.char_ne noPlus)
          next => exact congrArg (Option.filter (· < limit)) number

theorem exists_digits_of_readUnsigned? {radix : Radix} {limit number : Nat} {text : List Char}
    (read : readUnsigned? radix.base limit text = some number) :
    ∃ (hasPlus : Bool) (digits : List (Digit radix.base)), digits ≠ [] ∧
      signText '+' hasPlus ++ digits.map Digit.char = text := by
  have digitsOf {digitText : List Char}
      (read : (if digitText.isEmpty then none
        else (digitsValue? radix.base 0 digitText).filter (· < limit)) = some number) :
      ∃ digits : List (Digit radix.base), digits ≠ [] ∧ digits.map Digit.char = digitText := by
    split at read
    next => contradiction
    next notEmpty =>
      obtain ⟨digits, rfl⟩ :=
        exists_digits_of_digitsValue? (Option.filter_eq_some_iff.mp read).1
      refine ⟨digits, ?_, rfl⟩
      rintro rfl
      exact notEmpty rfl
  unfold readUnsigned? at read
  split at read
  next rest =>
    obtain ⟨digits, nonempty, rfl⟩ := digitsOf read
    exact ⟨true, digits, nonempty, rfl⟩
  next =>
    obtain ⟨digits, nonempty, rfl⟩ := digitsOf read
    exact ⟨false, digits, nonempty, rfl⟩

/-- A decimal numeral without its sign does not start like a hexadecimal one. -/
theorem unsigned_ne_mark (hasPlus : Bool) (digits : List (Digit (Radix.base .decimal)))
    {mark : Char} (noDigit : digit? 10 mark = none) (rest : List Char) :
    signText '+' hasPlus ++ digits.map Digit.char ≠ '0' :: mark :: rest := by
  intro same
  cases hasPlus with
  | true => cases same
  | false =>
      have member : mark ∈ digits.map Digit.char := by
        rw [show digits.map Digit.char = _ from same]
        simp
      obtain ⟨digit, -, charEq⟩ := List.mem_map.mp member
      exact @Digit.char_ne .decimal mark noDigit digit charEq

theorem readMagnitude?_mark (radix : Radix) (hasPlus : Bool) (digits : List (Digit radix.base)) :
    readMagnitude? (radix.mark ++ (signText '+' hasPlus ++ digits.map Digit.char)) =
      readUnsigned? radix.base UInt64.size (signText '+' hasPlus ++ digits.map Digit.char) := by
  cases radix with
  | decimal =>
      rw [Radix.mark, List.nil_append]
      unfold readMagnitude?
      split
      next marked => exact absurd marked (unsigned_ne_mark hasPlus digits rfl _)
      next marked => exact absurd marked (unsigned_ne_mark hasPlus digits rfl _)
      next => rfl
  | hexadecimal isUpper =>
      cases isUpper with
      | false => rfl
      | true => rfl

theorem exists_mark_of_readMagnitude? {text : List Char} {number : Nat}
    (read : readMagnitude? text = some number) :
    ∃ (radix : Radix) (unsigned : List Char), radix.mark ++ unsigned = text ∧
      readUnsigned? radix.base UInt64.size unsigned = some number := by
  unfold readMagnitude? at read
  split at read
  next digits => exact ⟨.hexadecimal false, digits, rfl, read⟩
  next digits => exact ⟨.hexadecimal true, digits, rfl, read⟩
  next => exact ⟨.decimal, text, rfl, read⟩

/-! ## Integers -/

namespace Numeral

theorem readMagnitude?_eq (numeral : Numeral) :
    readMagnitude? (numeral.radix.mark ++ numeral.unsignedText) =
      (some numeral.magnitude).filter (· < UInt64.size) := by
  rw [unsignedText, readMagnitude?_mark, readUnsigned?_chars numeral.nonempty]
  rfl

/-- Only a minus sign starts with a minus sign. -/
theorem unsigned_ne_minus (numeral : Numeral) (rest : List Char) :
    numeral.radix.mark ++ numeral.unsignedText ≠ '-' :: rest := by
  obtain ⟨isNegative, radix, hasPlus, digits, nonempty⟩ := numeral
  intro same
  cases radix with
  | hexadecimal isUpper => cases same
  | decimal =>
      cases hasPlus with
      | true => cases same
      | false =>
          cases digits with
          | nil => contradiction
          | cons digit others =>
              exact @Digit.char_ne .decimal '-' rfl digit (List.cons.inj same).1

/-- A numeral is read as its value if its magnitude is in range, and refused otherwise. -/
theorem readInteger?_text (numeral : Numeral) :
    readInteger? numeral.text =
      if numeral.magnitude < UInt64.size then some numeral.value else none := by
  have magnitude : readMagnitude? (numeral.radix.mark ++ numeral.unsignedText) =
      if numeral.magnitude < UInt64.size then some numeral.magnitude else none := by
    rw [numeral.readMagnitude?_eq, Option.filter_some]
    simp only [decide_eq_true_eq]
  cases negative : numeral.isNegative with
  | true =>
      have read : readInteger? numeral.text =
          (readMagnitude? (numeral.radix.mark ++ numeral.unsignedText)).map fun magnitude =>
            -Int64.ofNat magnitude := by
        rw [text, negative]
        rfl
      have valueEq : numeral.value = -Int64.ofNat numeral.magnitude := by
        rw [value, negative, if_pos rfl, Int64.ofInt_neg, Int64.ofInt_eq_ofNat]
      rw [read, magnitude, valueEq]
      split <;> rfl
  | false =>
      have read : readInteger? numeral.text =
          (readMagnitude? (numeral.radix.mark ++ numeral.unsignedText)).map Int64.ofNat := by
        rw [text, negative]
        unfold readInteger?
        split
        next minus => exact absurd minus (numeral.unsigned_ne_minus _)
        next => rfl
      have valueEq : numeral.value = Int64.ofNat numeral.magnitude := by
        rw [value, negative, if_neg Bool.false_ne_true, Int64.ofInt_eq_ofNat]
      rw [read, magnitude, valueEq]
      split <;> rfl

end Numeral

/-- Whatever is read has the form of a numeral. -/
theorem exists_numeral_of_readInteger? {text : List Char} {value : Int64}
    (read : readInteger? text = some value) : ∃ numeral : Numeral, numeral.text = text := by
  have numeralOf (isNegative : Bool) {unsigned : List Char} {number : Nat}
      (read : readMagnitude? unsigned = some number) :
      ∃ numeral : Numeral, numeral.text = signText '-' isNegative ++ unsigned := by
    obtain ⟨radix, marked, rfl, unsignedRead⟩ := exists_mark_of_readMagnitude? read
    obtain ⟨hasPlus, digits, nonempty, rfl⟩ := exists_digits_of_readUnsigned? unsignedRead
    exact ⟨{ isNegative, radix, hasPlus, digits, nonempty }, rfl⟩
  unfold readInteger? at read
  split at read
  next digits =>
    obtain ⟨number, magnitude, -⟩ := Option.map_eq_some_iff.mp read
    exact numeralOf true magnitude
  next =>
    obtain ⟨number, magnitude, -⟩ := Option.map_eq_some_iff.mp read
    exact numeralOf false magnitude

theorem readInteger_eq_ok_iff {line : SourceLine} {text : List Char} {value : Int64} :
    readInteger line text = .ok value ↔ readInteger? text = some value := by
  unfold readInteger
  cases readInteger? text with
  | none => simp
  | some read => simp

/-- Exactly the numerals whose magnitude is below 2^64 are read as integers, each as its value in
two's complement; every other text is reported as no number. In particular, the decimal form of an
integer of 64 bits is read as that integer, and the decimal form of a natural number of 64 bits as
the integer with the same bits. -/
theorem readInteger_accepts (line : SourceLine) :
    (∀ text value, readInteger line text = .ok value ↔
      ∃ numeral : Numeral, numeral.text = text ∧ numeral.magnitude < UInt64.size ∧
        numeral.value = value) ∧
    (∀ text, (∃ value, readInteger line text = .ok value) ∨
      readInteger line text = .error (line.error (.invalidNumber (.ofList text)))) ∧
    (∀ value : Int64, readInteger line value.toInt.repr.toList = .ok value) ∧
    ∀ number : UInt64, ∃ value, readInteger line number.toNat.repr.toList = .ok value ∧
      value.toUInt64 = number := by
  refine ⟨?_, ?_, ?_, ?_⟩
  · intro text value
    rw [readInteger_eq_ok_iff]
    constructor
    · intro read
      obtain ⟨numeral, rfl⟩ := exists_numeral_of_readInteger? read
      rw [numeral.readInteger?_text] at read
      split at read
      next inRange => exact ⟨numeral, rfl, inRange, Option.some.inj read⟩
      next => contradiction
    · rintro ⟨numeral, rfl, inRange, rfl⟩
      rw [numeral.readInteger?_text, if_pos inRange]
  · intro text
    unfold readInteger
    cases readInteger? text with
    | none => exact .inr rfl
    | some value => exact .inl ⟨value, rfl⟩
  · intro value
    exact readInteger_eq_ok_iff.mpr (readInteger?_toInt value)
  · intro number
    refine ⟨.ofNat number.toNat, readInteger_eq_ok_iff.mpr (readInteger?_repr number.toNat_lt), ?_⟩
    simp

/-- The least integer is read although no positive integer has its magnitude. -/
example : readInteger? "-0X+8000000000000000".toList = some Int64.minValue := by decide

end MachineCode.Text
